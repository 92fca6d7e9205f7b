import Courier.Proofs.Headers.Name
import Courier.Proofs.Outcome
import Courier.Proofs.Text.Split
import Courier.StartLine

/-!
# Request lines in writing

A text is a request line exactly if it is the written form of one (`RequestLine.parse_eq_ok_iff`),
which is a matter of its three parts (`RequestLine.isCut_iff`), and every other text is refused for
the same reason (`RequestLine.eq_malformed_of_parse`).
-/

namespace Courier

namespace RequestLine

/-- The text is the line in writing: a method, a path and a protocol with single spaces between
them, and no space inside them; neither path nor protocol is empty. -/
def IsWritten (s : String) (line : RequestLine) : Prop :=
  s = line.render ∧ line.path ≠ "" ∧ ' ' ∉ line.path.toList ∧
    line.protocol ≠ "" ∧ ' ' ∉ line.protocol.toList

theorem toList_render (line : RequestLine) :
    line.render.toList =
      line.method.name.toList ++ ' ' :: (line.path.toList ++ ' ' :: line.protocol.toList) := by
  simp [render]

theorem ofString?_eq_some_iff {s : String} {method : Method} :
    Method.ofString? s = some method ↔ s = method.name := by
  unfold Method.ofString?
  constructor
  · intro h
    split_ifs at h
    cases h
    rfl
  · rintro rfl
    rw [dif_pos method.isToken]

/-- The texts that are read as a request line are its written form. -/
theorem parse_eq_ok_iff {s : String} {line : RequestLine} :
    parse s = .ok line ↔ IsWritten s line := by
  constructor
  · intro h
    unfold parse at h
    split at h
    · rename_i method path protocol hs
      obtain ⟨hs, -, hpath, hprotocol⟩ := Text.split_eq_three_iff.1 hs
      split at h
      · cases h
      · rename_i he
        simp only [Bool.or_eq_true, String.isEmpty_iff, not_or] at he
        cases hm : Method.ofString? method with
        | none =>
          rw [hm] at h
          cases h
        | some m =>
          rw [hm] at h
          cases h
          obtain rfl := ofString?_eq_some_iff.1 hm
          refine ⟨?_, he.1, hpath, he.2, hprotocol⟩
          rw [← String.toList_inj, hs, toList_render]
    · cases h
  · rintro ⟨rfl, hpath, hp, hprotocol, hq⟩
    have hm := Text.notMem_of_isToken line.method.isToken (c := ' ') (by decide)
    have hs := Text.split_eq_three_iff.2 ⟨line.toList_render, hm, hp, hq⟩
    have he : (line.path.isEmpty || line.protocol.isEmpty) = false := by
      simp [Bool.or_eq_false_iff, hpath, hprotocol]
    rw [parse, hs]
    simp only [he, ofString?_eq_some_iff.2 rfl]
    rfl

/-- A text that is no request line is refused as one that is malformed. -/
theorem eq_malformed_of_parse {s : String} {error : ValidationError} (h : parse s = .error error) :
    error = .malformedRequestLine s := by
  unfold parse at h
  split at h
  · split at h
    · cases h
      rfl
    · split at h
      · cases h
      · cases h
        rfl
  · cases h
    rfl

/-! ## Three parts -/

/-- The text is a method, a path and a protocol, with a space between any two of them. A method is a
token; path and protocol are not empty and have no space inside. -/
def IsCut (s method path protocol : String) : Prop :=
  s = method ++ " " ++ path ++ " " ++ protocol ∧ Text.isToken method = true ∧
    (path ≠ "" ∧ ' ' ∉ path.toList) ∧ protocol ≠ "" ∧ ' ' ∉ protocol.toList

theorem isCut_iff_isWritten {s : String} {line : RequestLine} :
    IsCut s line.method.name line.path line.protocol ↔ IsWritten s line := by
  constructor
  · rintro ⟨hs, -, ⟨hpath, hp⟩, hprotocol, hq⟩
    exact ⟨hs, hpath, hp, hprotocol, hq⟩
  · rintro ⟨hs, hpath, hp, hprotocol, hq⟩
    exact ⟨hs, line.method.isToken, ⟨hpath, hp⟩, hprotocol, hq⟩

theorem isCut_iff {s method path protocol : String} :
    IsCut s method path protocol ↔
      ∃ line, parse s = .ok line ∧ line.method.name = method ∧ line.path = path ∧
        line.protocol = protocol := by
  constructor
  · intro h
    have hw : IsWritten s ⟨⟨method, h.2.1⟩, path, protocol⟩ := isCut_iff_isWritten.1 h
    exact ⟨_, parse_eq_ok_iff.2 hw, rfl, rfl, rfl⟩
  · rintro ⟨line, hline, rfl, rfl, rfl⟩
    exact isCut_iff_isWritten.2 (parse_eq_ok_iff.1 hline)

theorem exists_parse_eq_ok_iff {s : String} :
    (∃ line, parse s = .ok line) ↔ ∃ method path protocol, IsCut s method path protocol := by
  constructor
  · rintro ⟨line, hline⟩
    exact ⟨_, _, _, isCut_iff.2 ⟨line, hline, rfl, rfl, rfl⟩⟩
  · rintro ⟨method, path, protocol, hcut⟩
    obtain ⟨line, hline, -⟩ := isCut_iff.1 hcut
    exact ⟨line, hline⟩

/-- The texts that are read as request lines are those that are cut into a method, a path and a
protocol; these are the parts of the line, and the line is written as the text again. Every other
text is malformed. A line of any method and any two texts is read back from its written form exactly
if these two are not empty and have no space inside. -/
theorem parse_reads_three_parts :
    (∀ s method path protocol, IsCut s method path protocol ↔
      ∃ line, parse s = .ok line ∧ line.method.name = method ∧ line.path = path ∧
        line.protocol = protocol) ∧
    (∀ s line, parse s = .ok line → line.render = s) ∧
    (∀ s, parse s = .error (.malformedRequestLine s) ↔
      ¬ ∃ method path protocol, IsCut s method path protocol) ∧
    ∀ line : RequestLine, parse line.render = .ok line ↔
      (line.path ≠ "" ∧ ' ' ∉ line.path.toList) ∧
        line.protocol ≠ "" ∧ ' ' ∉ line.protocol.toList := by
  refine ⟨fun s method path protocol => isCut_iff, fun s line h => ?_, fun s => ?_, fun line => ?_⟩
  · exact (parse_eq_ok_iff.1 h).1.symm
  · rw [eq_error_iff_of_forall fun _ => eq_malformed_of_parse, exists_parse_eq_ok_iff]
  · rw [parse_eq_ok_iff, ← isCut_iff_isWritten]
    exact ⟨fun h => h.2.2, fun h => ⟨rfl, line.method.isToken, h⟩⟩

/-- A path with a space inside makes four parts; with an empty protocol one of three is empty. -/
example :
    parse (render { method := .get, path := "/a b", protocol := "C" }) =
        .error (.malformedRequestLine "GET /a b C") ∧
      parse (render { method := .get, path := "/", protocol := "" }) =
        .error (.malformedRequestLine "GET / ") := by
  decide +kernel

end RequestLine

end Courier
