import Courier.Proofs.Headers.Written
import Courier.Proofs.Message.Draft
import Courier.Proofs.Numeral
import Courier.Response

/-!
# Responses that can be written

The line of a status is one line, and so is a cookie with what a client is told to do about it
(`SetCookie.hasLineBreak_render`). A response is written if its headers can be
(`Response.IsWritable`) and the length of its body can be declared
(`Response.exists_toOutgoing`). Its written form (`Response.encode`) tells its status, its headers
and its body (`Response.isWritten_encode`).
-/

namespace Courier

/-- Each phrase is part of a line. -/
theorem Status.hasLineBreak_of_phrase? {status : Status} {phrase : String}
    (h : status.phrase? = some phrase) : Text.hasLineBreak phrase = false := by
  have hall : ∀ entry ∈ phrases, Text.hasLineBreak entry.2 = false := by decide +kernel
  obtain ⟨before, after, he, -⟩ := List.lookup_eq_some_iff.1 h
  exact hall (status.code, phrase) (he ▸ List.mem_append_right _ List.mem_cons_self)

theorem StatusLine.hasLineBreak_ofStatus (status : Status) :
    Text.hasLineBreak (StatusLine.ofStatus status).render = false := by
  have hcode := Text.hasLineBreak_of_isToken (DeclaredLength.isToken_toString status.code)
  have hphrase : Text.hasLineBreak (status.phrase?.getD "") = false := by
    cases hp : status.phrase? with
    | none => decide
    | some phrase => exact Status.hasLineBreak_of_phrase? hp
  simp only [render, ofStatus, Status.render, Text.hasLineBreak_append, hcode, hphrase]
  decide

/-! ## Cookies -/

theorem Cookie.hasLineBreak_render (cookie : Cookie) : Text.hasLineBreak cookie.render = false := by
  have hvalue : Text.hasLineBreak cookie.value = false := by
    rw [Text.hasLineBreak, List.any_eq_false]
    intro c hc
    have hoctet := List.all_eq_true.1 cookie.isOctets c hc
    simp only [Bool.or_eq_true, beq_iff_eq]
    rintro (rfl | rfl) <;> exact absurd hoctet (by decide)
  rw [render, Text.hasLineBreak_append, Text.hasLineBreak_append, hvalue,
    Text.hasLineBreak_of_isToken cookie.isToken]
  decide

namespace SetCookie

theorem hasLineBreak_renderValue {name : String} {value : Option String}
    (hn : Text.hasLineBreak name = false) (hv : ∀ text ∈ value, Text.hasLineBreak text = false) :
    Text.hasLineBreak (renderValue name value) = false := by
  cases value with
  | none => rfl
  | some text =>
    simp only [renderValue, Text.hasLineBreak_append, hn, hv text rfl]
    decide

theorem hasLineBreak_renderFlag {name : String} (hn : Text.hasLineBreak name = false)
    (flag : Bool) : Text.hasLineBreak (renderFlag name flag) = false := by
  cases flag
  · rfl
  · simp only [renderFlag, if_true, Text.hasLineBreak_append, hn]
    decide

/-- A cookie whose attributes are lines is told in one line. -/
theorem hasLineBreak_render {s : SetCookie} (hp : ∀ text ∈ s.path, Text.hasLineBreak text = false)
    (hd : ∀ text ∈ s.domain, Text.hasLineBreak text = false)
    (he : ∀ text ∈ s.expires, Text.hasLineBreak text = false) :
    Text.hasLineBreak s.render = false := by
  have hage : ∀ text ∈ s.maxAge.map fun seconds => Numeral.ofInt seconds.toInt,
      Text.hasLineBreak text = false := by
    intro text ht
    obtain ⟨seconds, -, rfl⟩ := Option.map_eq_some_iff.1 ht
    exact Text.hasLineBreak_of_isToken (Numeral.isToken_ofInt _)
  have hsite : ∀ text ∈ s.sameSite.map SameSite.render, Text.hasLineBreak text = false := by
    intro text ht
    obtain ⟨site, -, rfl⟩ := Option.map_eq_some_iff.1 ht
    cases site <;> decide
  have hcookie := s.cookie.hasLineBreak_render
  simp only [render, Text.hasLineBreak_append, hcookie,
    hasLineBreak_renderValue (by decide : Text.hasLineBreak "Path" = false) hp,
    hasLineBreak_renderValue (by decide : Text.hasLineBreak "Domain" = false) hd,
    hasLineBreak_renderValue (by decide : Text.hasLineBreak "Max-Age" = false) hage,
    hasLineBreak_renderValue (by decide : Text.hasLineBreak "Expires" = false) he,
    hasLineBreak_renderFlag (by decide : Text.hasLineBreak "Secure" = false),
    hasLineBreak_renderFlag (by decide : Text.hasLineBreak "HttpOnly" = false),
    hasLineBreak_renderValue (by decide : Text.hasLineBreak "SameSite" = false) hsite]
  decide

end SetCookie

/-! ## Responses -/

namespace Response

/-- Each header can be written. -/
def IsWritable (r : Response) : Prop :=
  ∀ pair ∈ r.headers, HeaderName.isValid (Text.trim pair.1) = true ∧
    Text.hasLineBreak (Text.trim pair.2) = false

theorem IsWritable.withHeader {r : Response} (hr : r.IsWritable) {name value : String}
    (hn : HeaderName.isValid (Text.trim name) = true) (hv : Text.hasLineBreak value = false) :
    (r.withHeader name value).IsWritable := by
  intro pair hp
  rcases List.mem_append.1 hp with hp | hp
  · exact hr pair hp
  · obtain rfl := List.mem_singleton.1 hp
    exact ⟨hn, Text.hasLineBreak_trim hv⟩

theorem isWritable_text (status : Status) (body : Bytes) : (text status body).IsWritable := by
  intro pair hp
  obtain rfl := List.mem_singleton.1 hp
  exact ⟨by decide, by decide⟩

/-- A response whose headers can be written is written, if its length can be declared. -/
theorem exists_toOutgoing {r : Response} (hr : r.IsWritable)
    (hl : r.body.length ≤ Numeral.maxSigned) : ∃ outgoing, r.toOutgoing = .ok outgoing := by
  obtain ⟨headers, hp⟩ := (Headers.exists_ofPairs_iff r.headers).2 fun pair hm =>
    Headers.accepts_iff.2 (hr pair hm)
  let draft : Draft := { statusLine := (StatusLine.ofStatus r.status).render, headers }
  have hd : Draft.ofPairs (StatusLine.ofStatus r.status).render r.headers = .ok draft :=
    Draft.ofPairs_eq_ok_iff.2 ⟨StatusLine.hasLineBreak_ofStatus r.status, rfl, hp⟩
  obtain ⟨outgoing, ho⟩ := draft.exists_body hl
  exact ⟨outgoing, bind_eq_ok_iff.2 ⟨draft, hd, ho⟩⟩

/-- A text is written with any status, if its length can be declared. -/
theorem exists_toOutgoing_text (status : Status) {body : Bytes}
    (hl : body.length ≤ Numeral.maxSigned) :
    ∃ outgoing, (text status body).toOutgoing = .ok outgoing :=
  exists_toOutgoing (isWritable_text status body) hl

theorem exists_toOutgoing_payloadTooLarge :
    ∃ outgoing, (ofStatus .payloadTooLarge).toOutgoing = .ok outgoing := by
  unfold ofStatus
  apply exists_toOutgoing_text
  decide +kernel

/-! ### Written responses -/

/-- The written form of a response, if it has one. -/
def encode (r : Response) : Bytes :=
  match r.toOutgoing with
  | .ok outgoing => outgoing.message.head.encode ++ r.body
  | .error _ => []

/-- The first line of an answer: the code of the status and its customary phrase. -/
def firstLine (status : Status) : String :=
  "HTTP/1.1 " ++ toString status.code ++ " " ++ status.phrase?.getD ""

/-- The bytes are a response in writing: its first line, a line for each value of a header, an empty
line, and its body. A header has the values that the response gives it, in their order, but for the
length, which is that of the body. -/
def IsWritten (r : Response) (bytes : Bytes) : Prop :=
  ∃ pairs : List (String × String),
    bytes =
      Utf8.encode (firstLine r.status ++ "\r\n" ++
        String.join (pairs.map fun pair => pair.1 ++ ": " ++ pair.2 ++ "\r\n") ++ "\r\n") ++
      r.body ∧
    ∀ name, Headers.valuesOf name pairs =
      if HeaderName.same name "Content-Length" then [toString r.body.length]
      else Headers.valuesOf name r.headers

theorem encode_of_toOutgoing {r : Response} {outgoing : Outgoing}
    (h : r.toOutgoing = .ok outgoing) : r.encode = outgoing.message.head.encode ++ r.body := by
  rw [encode, h]

/-- The message of a response is a draft's, with the response's body. -/
theorem exists_built {r : Response} {outgoing : Outgoing} (h : r.toOutgoing = .ok outgoing) :
    ∃ m : Built, m.outgoing = outgoing ∧ m.bytes = r.body := by
  obtain ⟨draft, hd, hb⟩ := bind_eq_ok_iff.1 h
  exact ⟨⟨outgoing, r.body, _, _, draft, hd, .inl hb⟩, rfl, rfl⟩

/-- The message of a response has the response's headers, and declares the length of its body. -/
theorem exists_headers_of_toOutgoing {r : Response} {outgoing : Outgoing}
    (h : r.toOutgoing = .ok outgoing) :
    ∃ given headers, Headers.ofPairs r.headers = .ok given ∧
      given.set DeclaredLength.header (toString r.body.length) = .ok headers ∧
      outgoing.message.head =
        { statusLine := (StatusLine.ofStatus r.status).render, headers : Draft }.toHead
          (some r.body.length) := by
  obtain ⟨draft, hd, hb⟩ := bind_eq_ok_iff.1 h
  obtain ⟨-, hline, hp⟩ := Draft.ofPairs_eq_ok_iff.1 hd
  obtain ⟨-, headers, hs, rfl⟩ := Draft.exists_set_of_streaming hb
  exact ⟨draft.headers, headers, hp, hs, by rw [hline]⟩

/-- What a response is written as declares the length of its body. -/
theorem contentLength_toOutgoing {r : Response} {outgoing : Outgoing}
    (h : r.toOutgoing = .ok outgoing) :
    outgoing.message.head.contentLength = some r.body.length := by
  obtain ⟨given, headers, -, -, hhead⟩ := exists_headers_of_toOutgoing h
  rw [hhead]
  rfl

theorem isWritten_encode {r : Response} {outgoing : Outgoing} (h : r.toOutgoing = .ok outgoing) :
    r.IsWritten r.encode := by
  obtain ⟨given, headers, hp, hs, hhead⟩ := exists_headers_of_toOutgoing h
  refine ⟨headers.pairs, ?_, fun name => ?_⟩
  · have hline : (StatusLine.ofStatus r.status).render = firstLine r.status := rfl
    have hlines : String.join (headers.pairs.map fun pair => pair.1 ++ ": " ++ pair.2 ++ "\r\n") =
        headers.render := rfl
    rw [encode_of_toOutgoing h, hhead, hlines, Utf8.encode_append, Utf8.encode_append,
      Utf8.encode_append, Headers.encode_render, ← hline]
    rfl
  · have hv : headers.Valid := (Headers.valid_empty.foldlM hp).set hs
    rw [← Headers.getAll_eq_valuesOf hv.ofPairs_pairs, Headers.getAll_set hs,
      ← Headers.getAll_eq_valuesOf hp, Text.trim_of_isToken (DeclaredLength.isToken_toString _)]
    exact if_congr HeaderName.same_iff.symm rfl rfl

/-- A response in writing begins with its first line. -/
theorem IsWritten.isPrefix {r : Response} {bytes : Bytes} (h : r.IsWritten bytes) {line : String}
    (hl : firstLine r.status ++ "\r\n" = line) : Utf8.encode line <+: bytes := by
  obtain ⟨pairs, rfl, -⟩ := h
  subst hl
  simp only [Utf8.encode_append, List.append_assoc, List.prefix_append_right_inj,
    List.prefix_append]

end Response

end Courier
