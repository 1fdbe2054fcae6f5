import Mathlib.Data.List.Forall2

/-!
Inversion of computations that may fail: what the success or the error of a `bind`, `map`, `mapM` or
`foldlM` says about its parts.
-/

namespace Metrology.Outcome

variable {ε α β : Type}

/-! ### Members of lists related entry by entry -/

theorem related_image {R : α → β → Prop} {as : List α} {bs : List β} (related : List.Forall₂ R as bs)
    {a : α} (member : a ∈ as) : ∃ b ∈ bs, R a b := by
  induction related with
  | nil => cases member
  | cons head _ ih =>
    rcases List.mem_cons.mp member with rfl | member
    · exact ⟨_, List.mem_cons_self, head⟩
    · obtain ⟨b, present, hb⟩ := ih member
      exact ⟨b, List.mem_cons_of_mem _ present, hb⟩

theorem related_origin {R : α → β → Prop} {as : List α} {bs : List β} (related : List.Forall₂ R as bs)
    {b : β} (member : b ∈ bs) : ∃ a ∈ as, R a b :=
  related_image related.flip member

/-! ### Values -/

theorem bind_ok {x : Except ε α} {f : α → Except ε β} {b : β} (h : x >>= f = .ok b) :
    ∃ a, x = .ok a ∧ f a = .ok b := by
  cases x with
  | error e => cases h
  | ok a => exact ⟨a, rfl, h⟩

theorem bind_ok_iff {x : Except ε α} {f : α → Except ε β} {b : β} :
    x >>= f = .ok b ↔ ∃ a, x = .ok a ∧ f a = .ok b := by
  refine ⟨bind_ok, ?_⟩
  rintro ⟨a, rfl, h⟩
  exact h

theorem bind_congr_ok {x : Except ε α} {f g : α → Except ε β} (h : ∀ a, x = .ok a → f a = g a) :
    x >>= f = x >>= g := by
  cases x with
  | error e => rfl
  | ok a => exact h a rfl

theorem map_ok {x : Except ε α} {f : α → β} {b : β} (h : f <$> x = .ok b) :
    ∃ a, x = .ok a ∧ f a = b := by
  cases x with
  | error e => cases h
  | ok a => exact ⟨a, rfl, Except.ok.inj h⟩

theorem pure_ok {a b : α} (h : (pure a : Except ε α) = .ok b) : b = a :=
  (Except.ok.inj h).symm

theorem isOk_iff {x : Except ε α} : x.isOk = true ↔ ∃ a, x = .ok a := by
  cases x with
  | error e => exact ⟨nofun, nofun⟩
  | ok a => exact ⟨fun _ => ⟨a, rfl⟩, fun _ => rfl⟩

theorem mapM_ok {f : α → Except ε β} {as : List α} {bs : List β} (h : as.mapM f = .ok bs) :
    List.Forall₂ (fun a b => f a = .ok b) as bs := by
  induction as generalizing bs with
  | nil =>
    rw [List.mapM_nil] at h
    rw [pure_ok h]
    exact .nil
  | cons a as ih =>
    rw [List.mapM_cons] at h
    obtain ⟨b, hb, h⟩ := bind_ok h
    obtain ⟨rest, hrest, h⟩ := bind_ok h
    rw [pure_ok h]
    exact .cons hb (ih hrest)

theorem mapM_of_forall₂ {f : α → Except ε β} {as : List α} {bs : List β}
    (h : List.Forall₂ (fun a b => f a = .ok b) as bs) : as.mapM f = .ok bs := by
  induction h with
  | nil => rfl
  | cons head _ ih => rw [List.mapM_cons, head, ih]; rfl

theorem mem_of_mapM_ok {f : α → Except ε β} {as : List α} {bs : List β} (h : as.mapM f = .ok bs)
    {b : β} (member : b ∈ bs) : ∃ a ∈ as, f a = .ok b :=
  related_origin (mapM_ok h) member

theorem ok_of_mem_mapM {f : α → Except ε β} {as : List α} {bs : List β} (h : as.mapM f = .ok bs) {a : α}
    (member : a ∈ as) : ∃ b, f a = .ok b := by
  obtain ⟨b, -, hf⟩ := related_image (mapM_ok h) member
  exact ⟨b, hf⟩

theorem mapM_of_forall {f : α → Except ε β} {as : List α} (h : ∀ a ∈ as, ∃ b, f a = .ok b) :
    ∃ bs, as.mapM f = .ok bs := by
  induction as with
  | nil => exact ⟨[], rfl⟩
  | cons a as ih =>
    rw [List.forall_mem_cons] at h
    obtain ⟨b, head⟩ := h.1
    obtain ⟨bs, rest⟩ := ih h.2
    exact ⟨b :: bs, by rw [List.mapM_cons, head, rest]; rfl⟩

/-! ### Errors -/

theorem bind_of_error {x : Except ε α} {e : ε} (h : x = .error e) (f : α → Except ε β) : x >>= f = .error e := by
  rw [h]
  rfl

theorem bind_error {x : Except ε α} {f : α → Except ε β} {e : ε} (h : x >>= f = .error e) :
    x = .error e ∨ ∃ a, x = .ok a ∧ f a = .error e := by
  cases x with
  | error e' => exact .inl (congrArg _ (Except.error.inj h))
  | ok a => exact .inr ⟨a, rfl, h⟩

theorem mapM_error {f : α → Except ε β} {as : List α} {e : ε} (h : as.mapM f = .error e) :
    ∃ a ∈ as, f a = .error e := by
  induction as with
  | nil => cases h
  | cons a as ih =>
    rw [List.mapM_cons] at h
    rcases bind_error h with head | ⟨b, -, h⟩
    · exact ⟨a, List.mem_cons_self, head⟩
    · rcases bind_error h with rest | ⟨bs, -, h⟩
      · obtain ⟨a', member, failed⟩ := ih rest
        exact ⟨a', List.mem_cons_of_mem _ member, failed⟩
      · cases h

theorem foldlM_error {f : β → α → Except ε β} {as : List α} {b : β} {e : ε} (h : as.foldlM f b = .error e) :
    ∃ c, ∃ a ∈ as, f c a = .error e := by
  induction as generalizing b with
  | nil => cases h
  | cons a as ih =>
    rw [List.foldlM_cons] at h
    rcases bind_error h with head | ⟨c, -, h⟩
    · exact ⟨b, a, List.mem_cons_self, head⟩
    · obtain ⟨c, a', member, failed⟩ := ih h
      exact ⟨c, a', List.mem_cons_of_mem _ member, failed⟩

end Metrology.Outcome
