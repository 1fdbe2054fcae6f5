import Metrology.Proofs.Quantity.TidyForm

/-!
Powers as an action of the integers. Multiplying the exponents of a list commutes with merging it
(`merge_scaled`) and, up to another sort, with sorting it (`sort_scaled`), whichever sign the multiplier has.
So a power of a power is the power of the product, and an inverse of an inverse is the tidied quantity. None
of this needs the units to be of one registry.
-/

namespace Metrology.Quantity
open Outcome

variable {α : Type} {us us' vs vs' ws ws' : List (Factor α)} {u u' v v' : Factor α} {n m : Int}

/-! ### Multiples and the canonical order -/

/-- `v` is `u` with `n` times its exponent. -/
def Multiple (n : Int) (u v : Factor α) : Prop :=
  v.base = u.base ∧ v.pre = u.pre ∧ v.exponent.val = u.exponent.val * n

theorem scaled_filter {p p' : Factor α → Bool} (scaled : Scaled n us vs)
    (agree : ∀ u ∈ us, ∀ v, Multiple n u v → p' v = p u) : Scaled n (us.filter p) (vs.filter p') := by
  induction scaled with
  | nil => exact .nil
  | cons head _ ih =>
    rw [List.forall_mem_cons] at agree
    have rest := ih agree.2
    rw [List.filter_cons, List.filter_cons, agree.1 _ head]
    split
    · exact .cons head rest
    · exact rest

/-- What takes one list to a second and a multiple of it to a third takes the second to the third. -/
theorem scaled_between (first : Scaled m us vs) (whole : Scaled (m * n) us ws) : Scaled n vs ws := by
  induction first generalizing ws with
  | nil =>
    cases whole
    exact .nil
  | cons head _ ih =>
    cases whole with
    | cons head' rest =>
      obtain ⟨base, pre, exponent⟩ := head
      obtain ⟨base', pre', exponent'⟩ := head'
      refine .cons ⟨base'.trans base.symm, pre'.trans pre.symm, ?_⟩ (ih rest)
      rw [exponent', exponent, Int.mul_assoc]

theorem scaled_symbols (scaled : Scaled n us vs) : vs.map (·.base.symbol) = us.map (·.base.symbol) := by
  induction scaled with
  | nil => rfl
  | cons head _ ih => rw [List.map_cons, List.map_cons, head.1, ih]

theorem scaled_image (scaled : Scaled n us vs) (member : u ∈ us) : ∃ v ∈ vs, Multiple n u v :=
  related_image scaled member

/-- Whether the `n`-fold of `u` has the rank of `k`. -/
def levels (n : Int) (k u : Factor α) : Bool :=
  u.exponent.val != 0 && decide (k.exponent.val < 0 ↔ u.exponent.val * n < 0) && k.base.order == u.base.order

theorem levels_iff {k : Factor α} : levels n k u = true ↔
    u.exponent.val ≠ 0 ∧ (k.exponent.val < 0 ↔ u.exponent.val * n < 0) ∧ k.base.order = u.base.order := by
  rw [levels, Bool.and_eq_true, Bool.and_eq_true, bne_iff_ne, decide_eq_true_eq, beq_iff_eq, and_assoc]

theorem mul_neg_iff_of_ne_zero (nonzero : n ≠ 0) {a b : Int} (ha : a ≠ 0) (hb : b ≠ 0)
    (same : a * n < 0 ↔ b * n < 0) : a < 0 ↔ b < 0 := by
  rcases lt_or_gt_of_ne nonzero with negative | positive
  · simp only [mul_neg_iff, negative, negative.not_gt, and_true, and_false, or_false] at same
    omega
  · simp only [mul_neg_iff, positive, positive.not_gt, and_true, and_false, false_or] at same
    exact same

/-- It does not matter whether a list is sorted before its exponents are multiplied as well, be it that the
two groups change places. -/
theorem sort_scaled (nonzero : n ≠ 0) (present : ∀ u ∈ us, u.exponent.val ≠ 0) (scaled : Scaled n us vs)
    (sorted : Scaled n (Factor.sort us) ws) : Factor.sort ws = Factor.sort vs := by
  refine Factor.eq_of_levels (Factor.sort_pairwise ws) (Factor.sort_pairwise vs) fun k => ?_
  have tied : ∀ u v : Factor α, levels n k u = true → levels n k v = true → u.precedes v = true := by
    intro u v hu hv
    rw [levels_iff] at hu hv
    have sign := mul_neg_iff_of_ne_zero nonzero hu.1 hv.1 (hu.2.1.symm.trans hv.2.1)
    exact Factor.precedes_iff.mpr (.inr ⟨sign, (hu.2.2.symm.trans hv.2.2).le⟩)
  have agree : ∀ u : Factor α, u.exponent.val ≠ 0 → ∀ v, Multiple n u v → k.level v = levels n k u := by
    rintro u hu v ⟨base, -, exponent⟩
    rw [Bool.eq_iff_iff, Factor.level_iff, levels_iff, base, exponent]
    exact (and_iff_right hu).symm
  have left := scaled_filter sorted fun u member => agree u (present u ((Factor.sort_perm us).mem_iff.mp member))
  have right := scaled_filter scaled fun u member => agree u (present u member)
  rw [Factor.filter_sort tied] at left
  rw [Factor.filter_sort fun u v => Factor.precedes_of_level k, Factor.filter_sort fun u v => Factor.precedes_of_level k]
  exact scaled_unique left right

/-! ### Settled lists -/

/-- Distinct bases and no exponent zero. -/
structure Separate (us : List (Factor α)) : Prop where
  distinct : (us.map (·.base.symbol)).Nodup
  nonzero : ∀ u ∈ us, u.exponent.val ≠ 0

/-- What tidying brings any list to, of one registry or not. -/
structure Settled (us : List (Factor α)) : Prop extends Separate us where
  sorted : Factor.sort us = us

theorem Separate.scaled (separate : Separate us) (nonzero : n ≠ 0) (scaled : Scaled n us vs) : Separate vs := by
  refine ⟨scaled_symbols scaled ▸ separate.distinct, fun v member => ?_⟩
  obtain ⟨u, origin, -, -, exponent⟩ := scaled_origin scaled member
  rw [exponent]
  exact mul_ne_zero (separate.nonzero u origin) nonzero

theorem Separate.sort (separate : Separate us) : Settled (Factor.sort us) := by
  refine ⟨⟨?_, fun u member => separate.nonzero u ((Factor.sort_perm us).mem_iff.mp member)⟩, Factor.sort_sort us⟩
  rw [((Factor.sort_perm us).map _).nodup_iff]
  exact separate.distinct

theorem settled_of_tidy (tidy : Tidy us) : Settled us :=
  ⟨⟨tidy.distinct, tidy.nonzero⟩, Factor.sort_of_ordered tidy.ordered⟩

theorem settled_nil : Settled ([] : List (Factor α)) :=
  settled_of_tidy tidy_nil

/-! ### Multiples and merging -/

theorem multiple_sameBase (hu : Multiple n u u') (hv : Multiple n v v') : v'.sameBase u' = v.sameBase u := by
  rw [Factor.sameBase, hu.1, hv.1]
  rfl

theorem multiple_samePrefix (hu : Multiple n u u') (hv : Multiple n v v') : v'.samePrefix u' = v.samePrefix u := by
  rw [Factor.samePrefix, Factor.prefixSymbol?, Factor.prefixSymbol?, hu.2.1, hv.2.1]
  rfl

variable [Scalar α] {q r s t : Quantity α} {x x' y y' : α} {K : α → α → Prop}

theorem Separate.tidy (separate : Separate us) : Quantity.tidy ⟨x, us⟩ = .ok ⟨x * Scalar.one, Factor.sort us⟩ :=
  tidy_of_distinct separate.distinct separate.nonzero

/-- `K` relates scales, and still does when each takes its own prefixes. -/
def Keeps (n : Int) (K : α → α → Prop) : Prop :=
  ∀ {u u' v v' x x'}, Multiple n u u' → Multiple n v v' → K x x' →
    K (x * (v.prefixScale * u.prefixScale)) (x' * (v'.prefixScale * u'.prefixScale))

theorem absorb_scaled (keeps : Keeps n K) (factor : Multiple n u u') (scaled : Scaled n vs vs') (related : K x x')
    (h : absorb u x vs = .ok (ws, y)) (h' : absorb u' x' vs' = .ok (ws', y')) : Scaled n ws ws' ∧ K y y' := by
  induction scaled generalizing ws ws' with
  | nil =>
    cases h
    cases h'
    exact ⟨.cons factor .nil, related⟩
  | @cons v v' vs vs' head tail ih =>
    unfold absorb at h h'
    rw [multiple_sameBase factor head] at h'
    by_cases same : v.sameBase u = true
    · rw [if_pos same] at h h'
      split at h
      · cases h
      rename_i e sum
      split at h'
      · cases h'
      rename_i e' sum'
      have exponent : e'.val = e.val * n := by
        rw [Exponent.add?_ok sum, Exponent.add?_ok sum', factor.2.2, head.2.2, add_mul]
      rw [multiple_samePrefix factor head] at h'
      by_cases prefixes : v.samePrefix u = true
      · rw [if_pos prefixes] at h h'
        cases h
        cases h'
        exact ⟨.cons ⟨head.1, head.2.1, exponent⟩ tail, related⟩
      · rw [if_neg prefixes] at h h'
        cases h
        cases h'
        exact ⟨.cons ⟨head.1, rfl, exponent⟩ tail, keeps factor head related⟩
    · rw [if_neg same] at h h'
      obtain ⟨⟨rest, z⟩, absorbed, h⟩ := bind_ok h
      obtain ⟨⟨rest', z'⟩, absorbed', h'⟩ := bind_ok h'
      cases h
      cases h'
      obtain ⟨multiples, scales⟩ := ih absorbed absorbed'
      exact ⟨.cons head multiples, scales⟩

theorem foldlM_scaled (keeps : Keeps n K) (list : Scaled n us us') (scaled : Scaled n vs vs') (related : K x x')
    (h : us.foldlM (fun (merged, scale) u => absorb u scale merged) (vs, x) = .ok (ws, y))
    (h' : us'.foldlM (fun (merged, scale) u => absorb u scale merged) (vs', x') = .ok (ws', y')) :
    Scaled n ws ws' ∧ K y y' := by
  induction list generalizing vs vs' x x' with
  | nil =>
    cases h
    cases h'
    exact ⟨scaled, related⟩
  | cons head _ ih =>
    rw [List.foldlM_cons] at h h'
    obtain ⟨⟨between, z⟩, absorbed, h⟩ := bind_ok h
    obtain ⟨⟨between', z'⟩, absorbed', h'⟩ := bind_ok h'
    obtain ⟨multiples, scales⟩ := absorb_scaled keeps head scaled related absorbed absorbed'
    exact ih multiples scales h h'

/-- Multiplied exponents are merged to the multiples of what the exponents are merged to. -/
theorem merge_scaled (keeps : Keeps n K) (one : K Scalar.one Scalar.one) (list : Scaled n us us')
    (h : merge us = .ok (ws, y)) (h' : merge us' = .ok (ws', y')) : Scaled n ws ws' ∧ K y y' :=
  foldlM_scaled keeps list .nil one h h'

theorem separate_merge (h : merge us = .ok (ws, y)) : Separate (ws.filter (·.exponent != 0)) :=
  ⟨(merge_distinct h).sublist (List.filter_sublist.map _),
    fun _ member => Exponent.bne_zero.mp (List.mem_filter.mp member).2⟩

theorem settled_tidy (h : q.tidy = .ok t) : Settled t.units := by
  obtain ⟨ws, x, merged, rfl⟩ := tidy_ok h
  exact (separate_merge merged).sort

/-- Tidying, multiplying the exponents and tidying again comes to the units of multiplying and tidying, and the
scales of the two stay related. -/
theorem tidy_scaled_tidy (keeps : Keeps n K) (one : K Scalar.one Scalar.one) (nonzero : n ≠ 0)
    (first : Quantity.tidy ⟨x, us⟩ = .ok r) (between : Scaled n r.units vs) (second : Quantity.tidy ⟨y, vs⟩ = .ok s)
    (whole : Scaled n us ws) (third : Quantity.tidy ⟨y', ws⟩ = .ok t) :
    s.units = t.units ∧ s.amount = y * Scalar.one ∧ ∃ a b, K a b ∧ r.amount = x * a ∧ t.amount = y' * b := by
  have separate := (settled_tidy first).toSeparate.scaled nonzero between
  rw [separate.tidy] at second
  cases second
  obtain ⟨ms, a, merged, rfl⟩ := tidy_ok first
  obtain ⟨ms', b, merged', rfl⟩ := tidy_ok third
  obtain ⟨multiples, related⟩ := merge_scaled keeps one whole merged merged'
  have kept : Scaled n (ms.filter (·.exponent != 0)) (ms'.filter (·.exponent != 0)) := by
    refine scaled_filter multiples fun u _ v multiple => ?_
    rw [Bool.eq_iff_iff, Exponent.bne_zero, Exponent.bne_zero, multiple.2.2, mul_ne_zero_iff]
    exact and_iff_left nonzero
  exact ⟨sort_scaled nonzero (separate_merge merged).nonzero kept between, rfl, a, b, related, rfl, rfl⟩

/-! ### Inverses of inverses -/

/-- An inverse is the power of minus one, the failures among them. -/
theorem pow_reciprocal (one_mul : ∀ x : α, Scalar.one * x = x) (q : Quantity α) : q.pow .reciprocal = q.inverse := by
  have amount : Scalar.pow q.amount (-1) = Scalar.one / q.amount := by
    rw [Scalar.pow, if_pos (by decide), show (-1 : Int).natAbs = 1 from rfl, Scalar.mulPow]
    simp [one_mul]
  rw [pow, if_neg (by decide), if_neg (by decide), inverse, funext Factor.raise_reciprocal, Exponent.val_reciprocal,
    amount]

theorem inverse_inverse (keeps : Keeps (-1) K) (one : K Scalar.one Scalar.one) (h : q.inverse = .ok r)
    (h' : r.inverse = .ok s) (tidied : q.tidy = .ok t) :
    s.units = t.units ∧ s.amount = Scalar.one / r.amount * Scalar.one ∧
      ∃ a b, K a b ∧ r.amount = Scalar.one / q.amount * a ∧ t.amount = q.amount * b := by
  obtain ⟨us, scaled, first⟩ := inverse_ok h
  obtain ⟨vs, between, second⟩ := inverse_ok h'
  exact tidy_scaled_tidy keeps one (by decide) first between second (scaled_between scaled (scaled_one q.units)) tidied

/-! ### Powers of powers -/

/-- A power of a settled list is settled: it is empty, or the multiples of the exponents in order. -/
theorem pow_settled {a : Exponent} (settled : Settled q.units) (h : q.pow a = .ok r) :
    Settled r.units ∧ ((a.val = 0 ∧ r.units = []) ∨
      (a.val ≠ 0 ∧ ∃ us, Scaled a.val q.units us ∧ r.units = Factor.sort us)) := by
  by_cases zero : a.val = 0
  · obtain rfl : a = 0 := Exponent.val_inj.mp zero
    obtain rfl : r = number Scalar.one := pure_ok h
    exact ⟨settled_nil, .inl ⟨zero, rfl⟩⟩
  rcases pow_ok h with ⟨none, -⟩ | ⟨one, rfl⟩ | ⟨us, scaled, tidied⟩
  · exact absurd none zero
  · exact ⟨settled, .inr ⟨zero, r.units, one ▸ scaled_one r.units, settled.sorted.symm⟩⟩
  · have separate := settled.toSeparate.scaled zero scaled
    rw [separate.tidy] at tidied
    cases tidied
    exact ⟨separate.sort, .inr ⟨zero, us, scaled, rfl⟩⟩

theorem pow_of_raise {a : Exponent} (settled : Settled q.units) (raises : ∀ u ∈ q.units, ∃ v, u.raise a = .ok v) :
    ∃ t, q.pow a = .ok t := by
  by_cases zero : a = 0
  · exact ⟨_, if_pos zero⟩
  by_cases one : a = 1
  · exact ⟨_, (if_neg zero).trans (if_pos one)⟩
  obtain ⟨us, raised⟩ := mapM_of_forall raises
  have nonzero : a.val ≠ 0 := fun same => zero (Exponent.val_inj.mp same)
  have separate := settled.toSeparate.scaled nonzero (scaled_of_raise raised)
  rw [pow, if_neg zero, if_neg one]
  exact ⟨_, bind_ok_iff.mpr ⟨us, raised, separate.tidy⟩⟩

/-- The power of a power is the power of the product, which is then in range as well. -/
theorem pow_pow_units {a b c : Exponent} (settled : Settled q.units) (product : c.val = a.val * b.val)
    (h : q.pow a = .ok r) (h' : r.pow b = .ok s) : ∃ t, q.pow c = .ok t ∧ t.units = s.units := by
  obtain ⟨settled', first⟩ := pow_settled settled h
  obtain ⟨-, second⟩ := pow_settled settled' h'
  rcases second with ⟨hb, empty⟩ | ⟨hb, vs, scaled', units'⟩
  · obtain rfl : c = 0 := Exponent.val_inj.mp (product.trans (mul_eq_zero_of_right _ hb))
    exact ⟨number Scalar.one, rfl, empty.symm⟩
  rcases first with ⟨ha, empty⟩ | ⟨ha, us, scaled, units⟩
  · obtain rfl : c = 0 := Exponent.val_inj.mp (product.trans (mul_eq_zero_of_left ha _))
    rw [empty] at scaled'
    cases scaled'
    exact ⟨number Scalar.one, rfl, units'.symm⟩
  · rw [units] at scaled'
    -- each exponent has been multiplied by both factors, and so the product with `c` is in range
    have raises : ∀ u ∈ q.units, ∃ v, u.raise c = .ok v := by
      intro u member
      obtain ⟨v, hv, -, -, first⟩ := scaled_image scaled member
      obtain ⟨w, -, -, -, second⟩ := scaled_image scaled' ((Factor.sort_perm us).mem_iff.mpr hv)
      exact ⟨_, Factor.raise_of_val (e := w.exponent) (by rw [second, first, product, Int.mul_assoc])⟩
    obtain ⟨t, powered⟩ := pow_of_raise settled raises
    obtain ⟨-, ⟨none, -⟩ | ⟨-, ws, whole, units''⟩⟩ := pow_settled settled powered
    · exact absurd (product.symm.trans none) (mul_ne_zero ha hb)
    refine ⟨t, powered, ?_⟩
    rw [units', units'']
    exact (sort_scaled hb (settled.toSeparate.scaled ha scaled).nonzero
      (scaled_between scaled (product ▸ whole)) scaled').symm

/-! ### Exact amounts -/

section Exact

variable {p p' s t : Quantity Rat}

theorem keeps_zpow (n : Int) : Keeps n fun x x' : Rat => x' = x ^ n := by
  have scale : ∀ {u u' : Factor Rat}, Multiple n u u' → u'.prefixScale = u.prefixScale ^ n := by
    rintro u u' ⟨-, pre, exponent⟩
    rw [Factor.prefixScale, Factor.prefixScale, Scalar.pow_eq_zpow, Scalar.pow_eq_zpow, Factor.multiplier,
      Factor.multiplier, pre, exponent, zpow_mul]
  intro u u' v v' x x' hu hv related
  rw [related, scale hu, scale hv, mul_zpow, mul_zpow]

theorem pow_amount {a : Exponent} (settled : Settled p.units) (h : p.pow a = .ok s) :
    s.amount = p.amount ^ a.val := by
  by_cases zero : a.val = 0
  · obtain rfl : a = 0 := Exponent.val_inj.mp zero
    obtain rfl : s = number Scalar.one := pure_ok h
    exact Scalar.one_eq.trans (zpow_zero _).symm
  rcases pow_ok h with ⟨none, -⟩ | ⟨one, rfl⟩ | ⟨us, scaled, tidied⟩
  · exact absurd none zero
  · rw [one, zpow_one]
  · have separate := settled.toSeparate.scaled zero scaled
    rw [separate.tidy] at tidied
    cases tidied
    rw [Scalar.one_eq, mul_one, Scalar.pow_eq_zpow]

theorem pow_pow {a b c : Exponent} (settled : Settled p.units) (product : c.val = a.val * b.val)
    (h : p.pow a = .ok p') (h' : p'.pow b = .ok s) : p.pow c = .ok s := by
  obtain ⟨t, powered, units⟩ := pow_pow_units settled product h h'
  have amount : t.amount = s.amount := by
    rw [pow_amount settled powered, pow_amount (pow_settled settled h).1 h', pow_amount settled h, product, zpow_mul]
  rw [powered, Quantity.ext amount units]

theorem inverse_inverse_exact (h : p.inverse = .ok p') (h' : p'.inverse = .ok s) (tidied : p.tidy = .ok t) :
    s = t := by
  have one : (Scalar.one : Rat) = Scalar.one ^ (-1 : Int) := by rw [Scalar.one_eq, one_zpow]
  obtain ⟨units, amount, a, b, related, between, whole⟩ := inverse_inverse
    (K := fun x x' => x' = x ^ (-1 : Int)) (keeps_zpow (-1)) one h h' tidied
  have amount : s.amount = t.amount := by
    rw [amount, between, whole, related, Scalar.one_eq, zpow_neg_one, mul_one, one_div, one_div, mul_inv, inv_inv]
  exact Quantity.ext amount units

end Exact

/-! ### The action -/

/-- Powers are an action of the integers. The power of minus one is the inverse; a power of a power of a tidy
quantity is the power of the product; and the inverse of an inverse is the tidied quantity, whatever its
shape. The units agree over any numbers, and over exact numbers the amounts do as well. -/
theorem pow_action (one_mul : ∀ x : α, Scalar.one * x = x) :
    (∀ q : Quantity α, q.pow .reciprocal = q.inverse) ∧
      (∀ (q r s : Quantity α) (a b c : Exponent), Tidy q.units → c.val = a.val * b.val → q.pow a = .ok r →
        r.pow b = .ok s → ∃ t, q.pow c = .ok t ∧ t.units = s.units) ∧
      (∀ (p r s : Quantity Rat) (a b c : Exponent), Tidy p.units → c.val = a.val * b.val → p.pow a = .ok r →
        r.pow b = .ok s → p.pow c = .ok s) ∧
      (∀ q r s t : Quantity α, q.inverse = .ok r → r.inverse = .ok s → q.tidy = .ok t → s.units = t.units) ∧
      ∀ p r s t : Quantity Rat, p.inverse = .ok r → r.inverse = .ok s → p.tidy = .ok t → s = t := by
  refine ⟨pow_reciprocal one_mul, ?_, ?_, ?_, fun p r s t => inverse_inverse_exact⟩
  · exact fun q r s a b c tidy product => pow_pow_units (settled_of_tidy tidy) product
  · exact fun p r s a b c tidy product => pow_pow (settled_of_tidy tidy) product
  · intro q r s t h h' tidied
    exact (inverse_inverse (K := fun _ _ => True) (fun _ _ _ => trivial) trivial h h' tidied).1

/-- `x km²/mg` -/
def areaPerMass (x : α) : Quantity α :=
  ⟨x, [⟨Registry.Builtin.metre, Prefix.named? "k", .squared⟩, ⟨Registry.Builtin.gram, Prefix.named? "m", .reciprocal⟩]⟩

theorem areaPerMass_tidy (x : α) : Tidy (areaPerMass x).units := by
  refine ⟨?_, ?_, ?_⟩
  · show ["m", "g"].Nodup
    decide
  · simp [areaPerMass]
  · have positive : 0 ≤ Exponent.squared.val := by decide
    have negative : Exponent.reciprocal.val < 0 := by decide
    exact List.pairwise_pair.mpr (.inl ⟨positive, negative⟩)

/-- The inverse of the inverse takes the mass to the front and back again. -/
theorem pow_action_areaPerMass :
    (areaPerMass (3 : Float)).pow .reciprocal = (areaPerMass 3).inverse ∧
      (∃ r, (areaPerMass (3 : Rat)).pow .reciprocal = .ok r ∧ r.pow .reciprocal = (areaPerMass (3 : Rat)).pow 1) ∧
      ∃ r s, (cancelledMetres (3 : Rat)).inverse = .ok r ∧ r.inverse = .ok s ∧ (cancelledMetres 3).tidy = .ok s := by
  have one_mul (x : Float) : Scalar.one * x = x := by rw [Scalar.Lawful.mul_comm, Scalar.Lawful.mul_one]
  obtain ⟨reciprocal, -, power, -, inverse⟩ := pow_action one_mul
  obtain ⟨s, h⟩ := isOk_iff.mp
    (show ((areaPerMass (3 : Rat)).pow .reciprocal >>= fun r => r.pow .reciprocal).isOk = true by decide +kernel)
  obtain ⟨r, first, second⟩ := bind_ok h
  obtain ⟨s', h'⟩ := isOk_iff.mp
    (show ((cancelledMetres (3 : Rat)).inverse >>= fun r => r.inverse).isOk = true by decide +kernel)
  obtain ⟨r', first', second'⟩ := bind_ok h'
  obtain ⟨t', tidied⟩ := isOk_iff.mp (show (cancelledMetres (3 : Rat)).tidy.isOk = true by decide +kernel)
  have whole := power _ _ _ .reciprocal .reciprocal 1 (areaPerMass_tidy 3) rfl first second
  refine ⟨reciprocal _, ⟨r, first, second.trans whole.symm⟩, r', s', first', second', ?_⟩
  rw [inverse _ _ _ _ first' second' tidied, tidied]

end Metrology.Quantity
