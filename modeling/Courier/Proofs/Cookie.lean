import Courier.Proofs.Headers.Name
import Courier.Proofs.Outcome
import Courier.Proofs.Text.Split
import Courier.Request

/-!
# Cookies of a request

A cookie is read back from its text (`Cookie.parse_render`). The parts of a header between its
semicolons are told apart before any of them is read: each that is not blank has to be a pair
(`Cookie.IsPair`), and the first that is none is what the header is refused for
(`Cookie.parseHeader_eq_ok_iff`, `Cookie.parseHeader_eq_error_iff`). So it makes no difference
whether cookies come in one header or in several (`Cookie.parseHeader_join`).
-/

namespace Courier

namespace Cookie

/-! ## Pairs in writing -/

theorem unquote_of_isOctets {value : String} (h : value.toList.all isOctet = true) :
    unquote value = value := by
  unfold unquote
  split
  · rename_i inner he
    rw [he, List.all_cons, Bool.and_eq_true] at h
    exact absurd h.1 (by decide)
  · rfl

theorem isBlank_of_isOctet {c : Char} (h : isOctet c = true) : Text.isBlank c = false := by
  simp only [isOctet, Bool.and_eq_true, decide_eq_true_eq] at h
  rw [Bool.eq_false_iff]
  simp only [Text.isBlank, ne_eq, Bool.or_eq_true, Bool.and_eq_true, decide_eq_true_eq,
    beq_iff_eq]
  omega

theorem trim_value (cookie : Cookie) : Text.trim cookie.value = cookie.value :=
  Text.trim_of_forall_isBlank fun c hc =>
    isBlank_of_isOctet (List.all_eq_true.1 cookie.isOctets c hc)

theorem parse_render (cookie : Cookie) : parse cookie.render = .ok cookie := by
  have hs : Text.splitOnce '=' cookie.render = some (cookie.name, cookie.value) :=
    Text.splitOnce_eq_some_iff.2 ⟨rfl, Text.notMem_of_isToken cookie.isToken (by decide)⟩
  rw [parse, hs]
  dsimp only
  rw [Text.trim_of_isToken cookie.isToken, cookie.trim_value, unquote_of_isOctets cookie.isOctets,
    make, dif_pos cookie.isToken, dif_pos cookie.isOctets]

theorem trim_render (cookie : Cookie) : Text.trim cookie.render = cookie.render :=
  Text.trim_append (c := '=') (by decide) (Text.trim_of_isToken cookie.isToken) cookie.trim_value

theorem semicolon_notMem_render (cookie : Cookie) : ';' ∉ cookie.render.toList := by
  have hname := Text.notMem_of_isToken cookie.isToken (c := ';') (by decide)
  have hvalue : ';' ∉ cookie.value.toList := fun hm =>
    absurd (List.all_eq_true.1 cookie.isOctets _ hm) (by decide)
  simp [render, String.toList_append, hname, hvalue]

/-! ## Pairs that are read -/

/-- The second text is the first one without the double quotes around it, if there are two. -/
inductive IsBare (value bare : String) : Prop where
  | quoted (h : value = "\"" ++ bare ++ "\"")
  | plain (h : ∀ inner, value ≠ "\"" ++ inner ++ "\"") (he : value = bare)

theorem unquote_quoted (inner : String) : unquote ("\"" ++ inner ++ "\"") = inner := by
  have hs : ("\"" ++ inner ++ "\"").toList = '"' :: (inner.toList ++ ['"']) := by
    simp [String.toList_append]
  rw [unquote, hs]
  simp

theorem unquote_of_forall_ne {value : String} (h : ∀ inner, value ≠ "\"" ++ inner ++ "\"") :
    unquote value = value := by
  unfold unquote
  split
  · rename_i inner hs
    split_ifs with hl
    · refine absurd ?_ (h (String.ofList inner.dropLast))
      obtain ⟨front, rfl⟩ := List.getLast?_eq_some_iff.1 hl
      rw [← String.toList_inj, hs]
      simp [String.toList_append]
    · rfl
  · rfl

theorem unquote_eq_iff {value bare : String} : unquote value = bare ↔ IsBare value bare := by
  constructor
  · rintro rfl
    by_cases h : ∃ inner, value = "\"" ++ inner ++ "\""
    · obtain ⟨inner, rfl⟩ := h
      rw [unquote_quoted]
      exact .quoted rfl
    · exact .plain (not_exists.1 h) (unquote_of_forall_ne (not_exists.1 h)).symm
  · rintro (rfl | ⟨h, rfl⟩)
    · exact unquote_quoted bare
    · exact unquote_of_forall_ne h

/-- The segment is the cookie in writing: its name, an equals sign, and its value, which may stand
between double quotes, with blanks around name and value. -/
def IsPair (segment : String) (cookie : Cookie) : Prop :=
  ∃ name value, segment = name ++ "=" ++ value ∧ Text.trim name = cookie.name ∧
    IsBare (Text.trim value) cookie.value

/-- What is wrong with a segment that is no cookie in writing. -/
inductive IsNoPair (segment : String) : Error → Prop where
  | missingSeparator (hn : '=' ∉ segment.toList) :
      IsNoPair segment (.missingSeparator (Text.trim segment))
  | invalidName {name value : String} (hs : segment = name ++ "=" ++ value) (hn : '=' ∉ name.toList)
      (ht : Text.isToken (Text.trim name) = false) :
      IsNoPair segment (.invalidName (Text.trim name))
  | invalidValue {name value bare : String} (hs : segment = name ++ "=" ++ value)
      (ht : Text.isToken (Text.trim name) = true) (hb : IsBare (Text.trim value) bare)
      (ho : bare.toList.all isOctet = false) :
      IsNoPair segment (.invalidValue (Text.trim name))

theorem equals_notMem_of_isToken_trim {name : String} (h : Text.isToken (Text.trim name) = true) :
    '=' ∉ name.toList := by
  rw [← Text.mem_trim_iff (by decide)]
  exact Text.notMem_of_isToken h (by decide)

theorem make_eq_ok_iff {name value : String} {cookie : Cookie} :
    make name value = .ok cookie ↔ name = cookie.name ∧ value = cookie.value := by
  unfold make
  constructor
  · intro h
    split_ifs at h
    cases h
    exact ⟨rfl, rfl⟩
  · rintro ⟨rfl, rfl⟩
    rw [dif_pos cookie.isToken, dif_pos cookie.isOctets]

theorem parse_trim_of_notMem {segment : String} (h : '=' ∉ segment.toList) :
    parse (Text.trim segment) = .error (.missingSeparator (Text.trim segment)) := by
  have hn : '=' ∉ (Text.trim segment).toList := by
    rwa [Text.mem_trim_iff (by decide)]
  rw [parse, Text.splitOnce_eq_none_iff.2 hn]

theorem parse_trim_append {name : String} (h : '=' ∉ name.toList) (value : String) :
    parse (Text.trim (name ++ "=" ++ value)) =
      make (Text.trim name) (unquote (Text.trim value)) := by
  obtain ⟨l, r, ht, hl, hr, hsub⟩ :=
    Text.exists_trim_append (by decide : Text.isBlank '=' = false) name value
  have hs : Text.splitOnce '=' (Text.trim (name ++ "=" ++ value)) = some (l, r) :=
    Text.splitOnce_eq_some_iff.2 ⟨ht, fun hm => h (hsub hm)⟩
  rw [parse, hs]
  dsimp only
  rw [hl, hr]

theorem parse_trim_eq_ok_iff {segment : String} {cookie : Cookie} :
    parse (Text.trim segment) = .ok cookie ↔ IsPair segment cookie := by
  constructor
  · intro h
    cases hs : Text.splitOnce '=' segment with
    | none =>
      rw [parse_trim_of_notMem (Text.splitOnce_eq_none_iff.1 hs)] at h
      cases h
    | some cut =>
      obtain ⟨name, value⟩ := cut
      obtain ⟨rfl, hn⟩ := Text.splitOnce_eq_some_iff.1 hs
      obtain ⟨hname, hvalue⟩ := make_eq_ok_iff.1 ((parse_trim_append hn value).symm.trans h)
      exact ⟨name, value, rfl, hname, unquote_eq_iff.1 hvalue⟩
  · rintro ⟨name, value, rfl, hname, hvalue⟩
    have hn : '=' ∉ name.toList := equals_notMem_of_isToken_trim (hname ▸ cookie.isToken)
    rw [parse_trim_append hn]
    exact make_eq_ok_iff.2 ⟨hname, unquote_eq_iff.2 hvalue⟩

theorem parse_trim_eq_error_iff {segment : String} {error : Error} :
    parse (Text.trim segment) = .error error ↔ IsNoPair segment error := by
  constructor
  · intro h
    cases hs : Text.splitOnce '=' segment with
    | none =>
      have hn := Text.splitOnce_eq_none_iff.1 hs
      rw [parse_trim_of_notMem hn] at h
      cases h
      exact .missingSeparator hn
    | some cut =>
      obtain ⟨name, value⟩ := cut
      obtain ⟨rfl, hn⟩ := Text.splitOnce_eq_some_iff.1 hs
      replace h := (parse_trim_append hn value).symm.trans h
      unfold make at h
      split_ifs at h with ht ho
      · cases h
        exact .invalidValue rfl ht (unquote_eq_iff.1 rfl) (Bool.eq_false_iff.2 ho)
      · cases h
        exact .invalidName rfl hn (Bool.eq_false_iff.2 ht)
  · rintro (hn | ⟨rfl, hn, ht⟩ | ⟨rfl, ht, hb, ho⟩)
    · exact parse_trim_of_notMem hn
    · rw [parse_trim_append hn, make, dif_neg (Bool.eq_false_iff.1 ht)]
    · rw [parse_trim_append (equals_notMem_of_isToken_trim ht), unquote_eq_iff.2 hb, make,
        dif_pos ht, dif_neg (Bool.eq_false_iff.1 ho)]

/-! ## Headers -/

/-- The parts of a header between its semicolons, without those that are blank. -/
def parts (header : String) : List String :=
  (Text.split ';' header).filter fun part => !(Text.trim part).isEmpty

theorem segments_eq (header : String) : segments header = (parts header).map Text.trim :=
  List.filter_map

/-- The cookies of a header are those of its parts, each of which has to be one. -/
theorem parseHeader_eq_ok_iff {header : String} {cookies : List Cookie} :
    parseHeader header = .ok cookies ↔ List.Forall₂ IsPair (parts header) cookies := by
  rw [parseHeader, segments_eq, mapM_eq_ok_iff, List.forall₂_map_left_iff]
  simp only [parse_trim_eq_ok_iff]

/-- A header is refused for the first of its parts that is no cookie. -/
theorem parseHeader_eq_error_iff {header : String} {error : Error} :
    parseHeader header = .error error ↔
      ∃ before bad after, parts header = before ++ bad :: after ∧
        (∀ part ∈ before, ∃ cookie, IsPair part cookie) ∧ IsNoPair bad error := by
  rw [parseHeader, segments_eq, List.mapM_map, mapM_eq_error_iff]
  simp only [Function.comp_apply, parse_trim_eq_ok_iff, parse_trim_eq_error_iff]

/-! ## One header and several -/

theorem segments_append (front back : String) :
    segments (front ++ ";" ++ back) = segments front ++ segments back := by
  have hs : Text.split ';' (front ++ ";" ++ back) = Text.split ';' front ++ Text.split ';' back :=
    Text.split_append ';' front back
  rw [segments, hs, List.map_append, List.filter_append]
  rfl

theorem segments_blank_append (header : String) : segments (" " ++ header) = segments header := by
  have hmap : (Text.split ';' (" " ++ header)).map Text.trim =
      (Text.split ';' header).map Text.trim := by
    cases hs : Text.splitChars ';' header.toList with
    | nil => exact absurd hs (Text.splitChars_ne_nil ';' header.toList)
    | cons first rest =>
      have hb : Text.splitChars ';' (" " ++ header).toList = (' ' :: first) :: rest := by
        rw [String.toList_append]
        show Text.splitChars ';' (' ' :: header.toList) = _
        rw [Text.splitChars, hs, if_neg (by decide)]
      have hfirst : Text.trim (String.ofList (' ' :: first)) = Text.trim (String.ofList first) := by
        rw [String.ofList_cons]
        exact Text.trim_blank_append (String.ofList first)
      rw [Text.split, Text.split, hb, hs, List.map_cons, List.map_cons, List.map_cons,
        List.map_cons, hfirst]
  rw [segments, hmap, segments]

/-- Headers have the segments of one header that holds them all. -/
theorem segments_join (headers : List String) :
    segments (Text.join "; " headers) = headers.flatMap segments := by
  induction headers with
  | nil => decide
  | cons header rest ih =>
    cases rest with
    | nil => simp [Text.join]
    | cons next rest =>
      have hj : Text.join "; " (header :: next :: rest) =
          header ++ ";" ++ (" " ++ Text.join "; " (next :: rest)) := by
        rw [Text.join, String.intercalate_cons_cons, Text.join, String.append_assoc,
          String.append_assoc, ← @String.append_assoc ";"]
        rfl
      rw [List.flatMap_cons, ← ih, hj, segments_append, segments_blank_append]

theorem segments_render (cookie : Cookie) : segments cookie.render = [cookie.render] := by
  have hne : cookie.render.isEmpty = false := by
    simp [render, String.isEmpty_eq_false_iff, String.append_eq_empty_iff]
  rw [segments, Text.split_of_notMem cookie.semicolon_notMem_render, List.map_singleton,
    cookie.trim_render, List.filter_singleton, hne]
  rfl

/-- Cookies are read from one header as they are from several. -/
theorem parseHeader_join (headers : List String) :
    parseHeader (Text.join "; " headers) = (headers.mapM parseHeader).map List.flatten := by
  rw [parseHeader, segments_join, mapM_flatMap]
  rfl

theorem parseHeader_join_render (cookies : List Cookie) :
    parseHeader (Text.join "; " (cookies.map render)) = .ok cookies := by
  have hs : (cookies.map render).flatMap segments = cookies.map render := by
    simp [List.flatMap_map, segments_render, ← List.map_eq_flatMap]
  rw [parseHeader, segments_join, hs, mapM_eq_ok_iff, List.forall₂_map_left_iff, List.forall₂_same]
  exact fun cookie _ => cookie.parse_render

/-- The first cookie of a name. -/
theorem find?_eq_some_iff {cookies : List Cookie} {name : String} {cookie : Cookie} :
    (cookies.find? fun cookie => cookie.name == name) = some cookie ↔
      ∃ before after, cookies = before ++ cookie :: after ∧ cookie.name = name ∧
        ∀ other ∈ before, other.name ≠ name := by
  rw [List.find?_eq_some_iff_append, beq_iff_eq]
  constructor
  · rintro ⟨hname, before, after, he, hbefore⟩
    exact ⟨before, after, he, hname, by simpa using hbefore⟩
  · rintro ⟨before, after, he, hname, hbefore⟩
    exact ⟨hname, before, after, he, by simpa using hbefore⟩

end Cookie

/-! ## Requests -/

namespace Request

variable {request : Request} {name : String}

theorem cookies_eq (request : Request) :
    request.cookies =
      Cookie.parseHeader (Text.join "; " (request.head.headers.getAll cookieHeader)) := by
  rw [Cookie.parseHeader_join]
  rfl

/-- The cookie that is found is the first one that has the name. -/
theorem cookie?_eq_some_iff {cookie : Cookie} :
    request.cookie? name = .ok (some cookie) ↔
      ∃ before after, request.cookies = .ok (before ++ cookie :: after) ∧ cookie.name = name ∧
        ∀ other ∈ before, other.name ≠ name := by
  simp only [cookie?, map_eq_ok_iff, Cookie.find?_eq_some_iff]
  constructor
  · rintro ⟨_, hc, before, after, rfl, hname, hbefore⟩
    exact ⟨before, after, hc, hname, hbefore⟩
  · rintro ⟨before, after, hc, hname, hbefore⟩
    exact ⟨_, hc, before, after, rfl, hname, hbefore⟩

theorem cookie?_eq_none_iff :
    request.cookie? name = .ok none ↔
      ∃ cookies, request.cookies = .ok cookies ∧ ∀ cookie ∈ cookies, cookie.name ≠ name := by
  simp only [cookie?, map_eq_ok_iff, List.find?_eq_none, beq_iff_eq, ne_eq]

end Request

/-- A header is read exactly if each of its parts that are not blank is a pair, and gives these in
their order; otherwise it is refused for the first of them that is none. Cookies that are written
with semicolons between them are read back. A request with several headers has the cookies of one
header that holds them all, or is refused for the same reason, and the cookie of a name is the first
that has just this name. -/
theorem Cookie.headers_tell_cookies :
    (∀ header,
      ((∃ cookies, parseHeader header = .ok cookies) ↔
        ∀ part ∈ parts header, ∃ cookie, IsPair part cookie) ∧
      (∀ cookies, parseHeader header = .ok cookies ↔ List.Forall₂ IsPair (parts header) cookies) ∧
      ∀ error, parseHeader header = .error error ↔
        ∃ before bad after, parts header = before ++ bad :: after ∧
          (∀ part ∈ before, ∃ cookie, IsPair part cookie) ∧ IsNoPair bad error) ∧
    (∀ cookies, parseHeader (Text.join "; " (cookies.map render)) = .ok cookies) ∧
    ∀ request : Request,
      request.cookies =
        parseHeader (Text.join "; " (request.head.headers.getAll Request.cookieHeader)) ∧
      ∀ name,
        (∀ cookie, request.cookie? name = .ok (some cookie) ↔
          ∃ before after, request.cookies = .ok (before ++ cookie :: after) ∧ cookie.name = name ∧
            ∀ other ∈ before, other.name ≠ name) ∧
        (request.cookie? name = .ok none ↔
          ∃ cookies, request.cookies = .ok cookies ∧ ∀ cookie ∈ cookies, cookie.name ≠ name) ∧
        ∀ error, request.cookie? name = .error error ↔ request.cookies = .error error := by
  refine ⟨fun header => ⟨?_, fun cookies => parseHeader_eq_ok_iff, fun error =>
    parseHeader_eq_error_iff⟩, parseHeader_join_render, fun request => ⟨request.cookies_eq,
    fun name => ⟨fun cookie => Request.cookie?_eq_some_iff, Request.cookie?_eq_none_iff,
      fun error => map_eq_error_iff⟩⟩⟩
  simp only [parseHeader_eq_ok_iff, exists_forall₂_iff]

/-- One pair of quotes is taken off, a single quote is not, and blanks between quotes stay. -/
example :
    Cookie.parseHeader " a = \"x=y\" ; ;b=\"\"" =
        .ok [{ name := "a", value := "x=y" }, { name := "b", value := "" }] ∧
      Cookie.parseHeader "a=1; b=\"; c" = .error (.invalidValue "b") ∧
      Cookie.parseHeader "a=\" \"" = .error (.invalidValue "a") := by
  decide +kernel

end Courier
