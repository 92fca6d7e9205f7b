import Courier.Proofs.Cookie
import Courier.Proofs.Numeral
import Courier.SetCookie

/-!
# Cookies that are read back

A cookie with its attributes is read back from its text if what was given as its path, its domain
and its date has no padding and no semicolon (`SetCookie.IsClean.parse_render`). Only such a cookie
is, since what is read from a text is one (`SetCookie.isClean_of_parse`).
-/

namespace Courier

namespace SetCookie

/-! ## Attributes in writing -/

/-- A text without padding and semicolons. -/
def IsPlain (text : String) : Prop :=
  ';' ∉ text.toList ∧ Text.trim text = text

theorem isPlain_of_isToken {text : String} (h : Text.isToken text = true) : IsPlain text :=
  ⟨Text.notMem_of_isToken h (by decide), Text.trim_of_isToken h⟩

theorem isPlain_trim {text : String} (h : ';' ∉ text.toList) : IsPlain (Text.trim text) := by
  refine ⟨?_, Text.trim_trim text⟩
  rw [Text.toList_trim]
  exact fun hm => h (Text.trimChars_subset _ hm)

/-- The name of an attribute, and its value if it has one. -/
structure Attribute where
  name : String
  value : Option String
deriving Repr, DecidableEq

namespace Attribute

/-- The attribute as text. -/
def segment (a : Attribute) : String :=
  match a.value with
  | some value => a.name ++ "=" ++ value
  | none => a.name

/-- An attribute that is its segment: its name is a token, and its value a plain text. -/
structure IsWritable (a : Attribute) : Prop where
  name : Text.isToken a.name = true
  value : ∀ text ∈ a.value, IsPlain text

variable {a : Attribute}

theorem IsWritable.isPlain_segment (h : a.IsWritable) : IsPlain a.segment := by
  obtain ⟨name, value⟩ := a
  have hname := isPlain_of_isToken h.name
  cases value with
  | none => exact hname
  | some text =>
    obtain ⟨hsemi, htrim⟩ := h.value text rfl
    refine ⟨?_, Text.trim_append (c := '=') (by decide) hname.2 htrim⟩
    simp [segment, String.toList_append, hname.1, hsemi]

theorem IsWritable.isEmpty_segment (h : a.IsWritable) : a.segment.isEmpty = false := by
  obtain ⟨name, value⟩ := a
  obtain ⟨hne, -⟩ := (Text.isToken_iff name).1 h.name
  rw [Ne, String.toList_eq_nil_iff] at hne
  cases value with
  | none => exact String.isEmpty_eq_false_iff.2 hne
  | some text => simp [segment, String.isEmpty_eq_false_iff, String.append_eq_empty_iff]

/-- The cookie with the attribute. -/
def addTo (s : SetCookie) (a : Attribute) : Except Cookie.Error SetCookie :=
  s.withAttribute (Text.lower a.name) a.value

/-- A segment adds the attribute that it is the text of. -/
theorem IsWritable.addSegment (h : a.IsWritable) (s : SetCookie) :
    s.addSegment a.segment = addTo s a := by
  obtain ⟨name, value⟩ := a
  have hname : '=' ∉ name.toList := Text.notMem_of_isToken h.name (by decide)
  cases value with
  | none =>
    rw [segment, SetCookie.addSegment, Text.splitOnce_eq_none_iff.2 hname, addTo]
  | some text =>
    have hs : Text.splitOnce '=' (segment ⟨name, some text⟩) = some (name, text) :=
      Text.splitOnce_eq_some_iff.2 ⟨rfl, hname⟩
    rw [SetCookie.addSegment, hs]
    dsimp only
    rw [Text.trim_of_isToken h.name, (h.value text rfl).2, addTo]

theorem foldlM_addSegment {attributes : List Attribute} (h : ∀ a ∈ attributes, a.IsWritable)
    (s : SetCookie) :
    (attributes.map segment).foldlM SetCookie.addSegment s = attributes.foldlM addTo s := by
  induction attributes generalizing s with
  | nil => rfl
  | cons a rest ih =>
    obtain ⟨ha, hr⟩ := List.forall_mem_cons.1 h
    rw [List.map_cons, List.foldlM_cons, List.foldlM_cons, ha.addSegment, funext (ih hr)]

end Attribute

/-- The attribute of a value, if there is one. -/
def valued (name : String) (value : Option String) : List Attribute :=
  value.toList.map fun text => ⟨name, some text⟩

/-- The attribute that is there or not. -/
def flagged (name : String) (flag : Bool) : List Attribute :=
  if flag then [⟨name, none⟩] else []

/-- The attributes in the order in which they are written. -/
def attributes (s : SetCookie) : List Attribute :=
  valued "Path" s.path ++ valued "Domain" s.domain ++
    valued "Max-Age" (s.maxAge.map fun seconds => Numeral.ofInt seconds.toInt) ++
    valued "Expires" s.expires ++ flagged "Secure" s.secure ++ flagged "HttpOnly" s.httpOnly ++
    valued "SameSite" (s.sameSite.map SameSite.render)

/-- Segments as they are written behind a pair. -/
def written (segments : List String) : String :=
  String.join (segments.map fun segment => String.singleton ';' ++ (" " ++ segment))

theorem written_append (segments segments' : List String) :
    written (segments ++ segments') = written segments ++ written segments' := by
  rw [written, List.map_append, String.join_append]
  rfl

theorem written_valued (name : String) (value : Option String) :
    written ((valued name value).map Attribute.segment) = renderValue name value := by
  cases value with
  | none => rfl
  | some text =>
    rw [written, renderValue, ← String.toList_inj]
    simp [valued, Attribute.segment, String.toList_append]

theorem written_flagged (name : String) (flag : Bool) :
    written ((flagged name flag).map Attribute.segment) = renderFlag name flag := by
  cases flag with
  | false => rfl
  | true =>
    rw [written, renderFlag, ← String.toList_inj]
    simp [flagged, Attribute.segment, String.toList_append]

theorem render_eq (s : SetCookie) :
    s.render = s.cookie.render ++ written (s.attributes.map Attribute.segment) := by
  simp only [render, attributes, List.map_append, written_append, written_valued, written_flagged,
    String.append_assoc]

/-! ## Clean cookies -/

/-- Path, domain and date are plain texts where they are given. -/
structure IsClean (s : SetCookie) : Prop where
  path : ∀ text ∈ s.path, IsPlain text
  domain : ∀ text ∈ s.domain, IsPlain text
  expires : ∀ text ∈ s.expires, IsPlain text

theorem isWritable_of_mem_valued {name : String} {value : Option String} {a : Attribute}
    (hn : Text.isToken name = true) (hv : ∀ text ∈ value, IsPlain text)
    (hm : a ∈ valued name value) : a.IsWritable := by
  obtain ⟨text, ht, rfl⟩ := List.mem_map.1 hm
  refine ⟨hn, fun other ho => ?_⟩
  obtain rfl := Option.some.inj ho
  exact hv _ (Option.mem_toList.1 ht)

theorem isWritable_of_mem_flagged {name : String} {flag : Bool} {a : Attribute}
    (hn : Text.isToken name = true) (hm : a ∈ flagged name flag) : a.IsWritable := by
  unfold flagged at hm
  split at hm
  · obtain rfl := List.mem_singleton.1 hm
    exact ⟨hn, nofun⟩
  · cases hm

theorem IsClean.isWritable {s : SetCookie} (h : s.IsClean) :
    ∀ a ∈ s.attributes, a.IsWritable := by
  have hage : ∀ text ∈ s.maxAge.map fun seconds => Numeral.ofInt seconds.toInt, IsPlain text := by
    intro text ht
    obtain ⟨seconds, -, rfl⟩ := Option.map_eq_some_iff.1 ht
    exact isPlain_of_isToken (Numeral.isToken_ofInt _)
  have hsite : ∀ text ∈ s.sameSite.map SameSite.render, IsPlain text := by
    intro text ht
    obtain ⟨site, -, rfl⟩ := Option.map_eq_some_iff.1 ht
    apply isPlain_of_isToken
    cases site <;> decide
  intro a hm
  simp only [attributes, List.mem_append] at hm
  rcases hm with (((((hm | hm) | hm) | hm) | hm) | hm) | hm
  · exact isWritable_of_mem_valued (by decide) h.path hm
  · exact isWritable_of_mem_valued (by decide) h.domain hm
  · exact isWritable_of_mem_valued (by decide) hage hm
  · exact isWritable_of_mem_valued (by decide) h.expires hm
  · exact isWritable_of_mem_flagged (by decide) hm
  · exact isWritable_of_mem_flagged (by decide) hm
  · exact isWritable_of_mem_valued (by decide) hsite hm

/-! ## Reading what was written -/

theorem parse_cookie_written {cookie : Cookie} {segments : List String}
    (hs : ∀ segment ∈ segments, IsPlain segment ∧ segment.isEmpty = false) :
    parse (cookie.render ++ written segments) = segments.foldlM addSegment { cookie } := by
  have hsplit : Text.split ';' (cookie.render ++ written segments) =
      cookie.render :: segments.map (" " ++ ·) := by
    rw [written, ← Text.split_join cookie.semicolon_notMem_render, List.map_map]
    · rfl
    · intro part hp
      obtain ⟨segment, hm, rfl⟩ := List.mem_map.1 hp
      rw [String.toList_append, List.mem_append, not_or]
      exact ⟨by decide, (hs segment hm).1.1⟩
  have htrim : (segments.map (" " ++ ·)).map Text.trim = segments := by
    rw [List.map_map, List.map_congr_left (g := id), List.map_id]
    intro segment hm
    rw [Function.comp_apply, Text.trim_blank_append, (hs segment hm).1.2, id]
  have hfilter : (segments.filter fun segment => !segment.isEmpty) = segments := by
    rw [List.filter_eq_self]
    intro segment hm
    rw [(hs segment hm).2, Bool.not_false]
  rw [parse, hsplit, List.map_cons, cookie.trim_render, htrim]
  dsimp only
  rw [cookie.parse_render, hfilter]
  rfl

theorem foldlM_valued (name : String) (value : Option String) (s : SetCookie) :
    (valued name value).foldlM Attribute.addTo s =
      match value with
      | none => .ok s
      | some text => s.withAttribute (Text.lower name) (some text) := by
  cases value with
  | none => rfl
  | some text => simp [valued, Attribute.addTo]

theorem foldlM_flagged (name : String) (flag : Bool) (s : SetCookie) :
    (flagged name flag).foldlM Attribute.addTo s =
      if flag then s.withAttribute (Text.lower name) none else .ok s := by
  cases flag with
  | false => rfl
  | true => simp [flagged, Attribute.addTo]

/-- The attributes of a cookie make it out of its pair. -/
theorem foldlM_attributes (s : SetCookie) :
    s.attributes.foldlM Attribute.addTo { cookie := s.cookie } = .ok s := by
  obtain ⟨cookie, path, domain, maxAge, expires, secure, httpOnly, sameSite⟩ := s
  -- One field after the other is filled, in the order in which they are written.
  have hpath : (valued "Path" path).foldlM Attribute.addTo { cookie } = .ok { cookie, path } := by
    rw [foldlM_valued]
    cases path <;> rfl
  have hdomain : (valued "Domain" domain).foldlM Attribute.addTo { cookie, path } =
      .ok { cookie, path, domain } := by
    rw [foldlM_valued]
    cases domain <;> rfl
  have hage : (valued "Max-Age" (maxAge.map fun seconds => Numeral.ofInt seconds.toInt)).foldlM
      Attribute.addTo { cookie, path, domain } = .ok { cookie, path, domain, maxAge } := by
    rw [foldlM_valued]
    cases maxAge with
    | none => rfl
    | some seconds =>
      have hseconds : parseMaxAge (Numeral.ofInt seconds.toInt) = .ok seconds := by
        rw [parseMaxAge, Numeral.signed64_ofInt]
      show (parseMaxAge (Numeral.ofInt seconds.toInt)).map _ = _
      rw [hseconds]
      rfl
  have hexpires : (valued "Expires" expires).foldlM Attribute.addTo
      { cookie, path, domain, maxAge } = .ok { cookie, path, domain, maxAge, expires } := by
    rw [foldlM_valued]
    cases expires <;> rfl
  have hsecure : (flagged "Secure" secure).foldlM Attribute.addTo
      { cookie, path, domain, maxAge, expires } =
      .ok { cookie, path, domain, maxAge, expires, secure } := by
    rw [foldlM_flagged]
    cases secure <;> rfl
  have hhttp : (flagged "HttpOnly" httpOnly).foldlM Attribute.addTo
      { cookie, path, domain, maxAge, expires, secure } =
      .ok { cookie, path, domain, maxAge, expires, secure, httpOnly } := by
    rw [foldlM_flagged]
    cases httpOnly <;> rfl
  have hsite : (valued "SameSite" (sameSite.map SameSite.render)).foldlM Attribute.addTo
      { cookie, path, domain, maxAge, expires, secure, httpOnly } =
      .ok { cookie, path, domain, maxAge, expires, secure, httpOnly, sameSite } := by
    rw [foldlM_valued]
    rcases sameSite with _ | _ | _ | _ <;> rfl
  simp only [attributes, List.foldlM_append, hpath, hdomain, hage, hexpires, hsecure, hhttp, hsite,
    bind, Except.bind]

theorem IsClean.parse_render {s : SetCookie} (h : s.IsClean) : parse s.render = .ok s := by
  have hsegments : ∀ segment ∈ s.attributes.map Attribute.segment,
      IsPlain segment ∧ segment.isEmpty = false := by
    intro segment hm
    obtain ⟨a, ha, rfl⟩ := List.mem_map.1 hm
    exact ⟨(h.isWritable a ha).isPlain_segment, (h.isWritable a ha).isEmpty_segment⟩
  rw [render_eq, parse_cookie_written hsegments, Attribute.foldlM_addSegment h.isWritable,
    foldlM_attributes]

/-! ## What is read -/

theorem isClean_withAttribute {s s' : SetCookie} {name : String} {value : Option String}
    (h : s.IsClean) (hv : ∀ text ∈ value, IsPlain text)
    (ha : s.withAttribute name value = .ok s') : s'.IsClean := by
  cases value with
  | none =>
    unfold withAttribute at ha
    split_ifs at ha <;> cases ha <;> exact ⟨h.path, h.domain, h.expires⟩
  | some text =>
    -- The attributes in the order of `withAttribute`; only three of them are texts.
    unfold withAttribute at ha
    split_ifs at ha
    · cases ha
      exact ⟨h.path, h.domain, h.expires⟩
    · cases ha
      exact ⟨h.path, h.domain, h.expires⟩
    · cases ha
      exact ⟨hv, h.domain, h.expires⟩
    · cases ha
      exact ⟨h.path, hv, h.expires⟩
    · cases ha
      exact ⟨h.path, h.domain, hv⟩
    · obtain ⟨seconds, -, rfl⟩ := map_eq_ok_iff.1 ha
      exact ⟨h.path, h.domain, h.expires⟩
    · obtain ⟨site, -, rfl⟩ := map_eq_ok_iff.1 ha
      exact ⟨h.path, h.domain, h.expires⟩
    · cases ha
      exact h

theorem isClean_addSegment {s s' : SetCookie} {segment : String} (h : s.IsClean)
    (hs : ';' ∉ segment.toList) (ha : s.addSegment segment = .ok s') : s'.IsClean := by
  unfold addSegment at ha
  split at ha
  · rename_i name value hsplit
    obtain ⟨rfl, -⟩ := Text.splitOnce_eq_some_iff.1 hsplit
    refine isClean_withAttribute h (fun text ht => ?_) ha
    obtain rfl := Option.some.inj ht
    apply isPlain_trim
    rw [String.toList_append, List.mem_append, not_or] at hs
    exact hs.2
  · exact isClean_withAttribute h (by simp) ha

/-- What is read from a text is clean, whatever attributes the text gives, how often, and in what
order. -/
theorem isClean_of_parse {text : String} {s : SetCookie} (h : parse text = .ok s) : s.IsClean := by
  unfold parse at h
  split at h
  · cases h
  · rename_i pair segments hsplit
    obtain ⟨cookie, -, h⟩ := bind_eq_ok_iff.1 h
    have hstart : IsClean { cookie } := ⟨nofun, nofun, nofun⟩
    refine foldlM_keeps hstart (fun segment hm s s' hs ha => ?_) h
    have hm' : segment ∈ (Text.split ';' text).map Text.trim :=
      hsplit ▸ List.mem_cons_of_mem _ (List.mem_of_mem_filter hm)
    obtain ⟨part, hpart, rfl⟩ := List.mem_map.1 hm'
    exact isClean_addSegment hs (isPlain_trim (Text.notMem_of_mem_split hpart)).1 ha

/-- A cookie with whatever attributes is read back from its text exactly if it is clean. What is
read from a text is clean, so it is read from its own text again. -/
theorem parse_render_iff :
    (∀ s : SetCookie, parse s.render = .ok s ↔ s.IsClean) ∧
    ∀ text s, parse text = .ok s → s.IsClean ∧ parse s.render = .ok s :=
  ⟨fun _ => ⟨isClean_of_parse, IsClean.parse_render⟩,
    fun _ _ h => ⟨isClean_of_parse h, (isClean_of_parse h).parse_render⟩⟩

/-- A path with an attribute inside is read as that attribute. -/
example :
    parse (render { cookie := { name := "id", value := "1" }, path := some "/;Path=/a" }) =
      .ok { cookie := { name := "id", value := "1" }, path := some "/a" } := by
  decide +kernel

end SetCookie

end Courier
