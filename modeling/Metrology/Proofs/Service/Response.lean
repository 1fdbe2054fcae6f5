import Mathlib.Data.Option.Basic
import Metrology.Service.Operation

/-!
What a response carries: the identifier that its line deserialises with, where there is one, and exactly one of
a result and an error (`toJson_ofLine`). An identifier is never null (`id_ne_null`).
-/

namespace Metrology
open Json

variable {line : String} {v : Written} {id : Option Json} {r : Request} {fields : List (String × Written)}
  {elements : List Written}

namespace Request

theorem readId?_ne_null (h : readId? v = some id) : id ≠ some .null := by
  obtain ⟨w, -, rfl⟩ := Option.map_eq_some_iff.mp h
  cases w <;> nofun

theorem ofFields?_id (h : ofFields? fields = some r) : r.id ≠ some .null := by
  simp only [ofFields?, Option.bind_eq_bind, Option.bind_eq_some_iff, Option.pure_def, Option.some.injEq] at h
  obtain ⟨written, -, id, read, _, -, operation, -, _, -, arguments, -, _, -, style, -, rfl⟩ := h
  cases written with
  | none =>
    cases read
    nofun
  | some v => exact readId?_ne_null read

theorem ofElements?_id (h : ofElements? elements = some r) : r.id ≠ some .null := by
  unfold ofElements? at h
  split at h
  case h_4 => cases h
  all_goals
    obtain ⟨id, read, h⟩ := Option.bind_eq_some_iff.mp h
    simp only [Option.bind_eq_bind, Option.bind_eq_some_iff, Option.pure_def, Option.some.injEq] at h
  · obtain ⟨operation, -, rfl⟩ := h
    exact readId?_ne_null read
  · obtain ⟨operation, -, arguments, -, rfl⟩ := h
    exact readId?_ne_null read
  · obtain ⟨operation, -, arguments, -, style, -, rfl⟩ := h
    exact readId?_ne_null read

theorem id_ne_null (h : read? line = some r) : r.id ≠ some .null := by
  obtain ⟨written, -, h⟩ := Option.bind_eq_some_iff.mp h
  unfold ofWritten? at h
  split at h
  · obtain ⟨fields, -, h⟩ := Option.bind_eq_some_iff.mp h
    exact ofFields?_id h
  · exact ofElements?_id h
  · cases h

end Request

namespace Response

/-- The identifier that a line deserialises with; null is none. -/
def identifier? (line : String) : Option Json :=
  (Request.read? line).bind (·.id)

theorem toJson_ofLine (style : Style) (line : String) :
    ∃ key value, (key = "result" ∨ key = "error") ∧ (ofLine style line).toJson =
      .object (((identifier? line).toList.map fun id => ("id", id)) ++ [(key, value)]) := by
  unfold identifier? ofLine
  cases Request.read? line with
  | none => exact ⟨"error", _, .inr rfl, rfl⟩
  | some r =>
    simp only [Option.bind_some, Request.answer, toJson]
    cases r.run style with
    | ok value => exact ⟨"result", value, .inl rfl, by cases r.id <;> rfl⟩
    | error refusal => exact ⟨"error", refusal.toJson, .inr rfl, by cases r.id <;> rfl⟩

end Response

end Metrology
