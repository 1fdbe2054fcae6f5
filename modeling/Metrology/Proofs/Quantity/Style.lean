import Metrology.Quantity.Format
import Metrology.Proofs.Decimal.Magnitude
import Metrology.Proofs.Registry.MoneyText
import Metrology.Proofs.Text.Superscript

/-!
The two styles of a text say the same. `Layout.Matches` compares two layouts while factors are added to both, and
`lowers_text` the finished texts. Main statement: `standard_lower_format`, the ascii text of a quantity of built-in
units is the plain form of its nice text.
-/

namespace Metrology
open Text

/-! ### Numerals -/

namespace Numeral

variable {n : Numeral}

theorem lowers_nice (unmarked : ∀ c ∈ n.mantissa, isMark c = false) : Lowers n.nice n.plain := by
  unfold nice plain
  split
  · refine .unmarked_append unmarked ?_
    simpa using Lowers.power _ (by simp) .nil
  · simpa using Lowers.unmarked_append unmarked .nil

theorem head?_nice (some : n.mantissa ≠ []) : n.nice.head? = n.plain.head? := by
  unfold nice plain
  split
  · rw [List.head?_append_of_ne_nil _ some, List.head?_append_of_ne_nil _ some]
  · rfl

theorem lowers_ofFloat (x : Float) : Lowers (ofFloat x).nice (ofFloat x).plain :=
  lowers_nice fun c member => isMark_of_ascii ((mantissa_ofFloat x).2 c member).1

end Numeral

variable {α : Type} {u : Factor α} {us : List (Factor α)} {style : Style} {n : Int}

/-! ### Factors -/

namespace Factor

/-- Nothing of the spelling of the factor is changed by `lower`. -/
structure Unmarked (u : Factor α) : Prop where
  nonempty : u.base.symbol.toList ≠ []
  symbol : ∀ c ∈ u.base.symbol.toList, isMark c = false
  pre : ∀ c ∈ (u.prefixSymbol?.getD "").toList, isMark c = false

theorem Unmarked.spelling (h : u.Unmarked) : u.spelling.toList ≠ [] ∧ ∀ c ∈ u.spelling.toList, isMark c = false := by
  rw [Factor.spelling, String.toList_append, List.forall_mem_append]
  exact ⟨by simp [h.nonempty], h.pre, h.symbol⟩

theorem Unmarked.renderPower (h : u.Unmarked) (n : Int) : Lowers (u.renderPower .nice n) (u.renderPower .ascii n) := by
  unfold Factor.renderPower
  refine .unmarked_append h.spelling.2 ?_
  split
  · exact .nil
  · exact .superscript n

theorem Unmarked.stop (h : u.Unmarked) : ∀ c ∈ (u.renderPower style n).head?, isRaisedDigit c = false := by
  intro c head
  rw [Factor.renderPower, List.head?_append_of_ne_nil _ h.spelling.1] at head
  exact isRaisedDigit_of_unmarked (h.spelling.2 c (List.mem_of_mem_head? head))

end Factor

/-! ### Layouts -/

namespace Quantity.Layout

variable {l m : Layout} {symbol cs ds : List Char}

theorem wrap_of_ne (h : cs.head? ≠ some '-') : wrap symbol cs = symbol ++ cs := by
  unfold wrap
  split
  · exact absurd rfl h
  · rfl

theorem wrap_lowers (some : symbol ≠ []) (unmarked : ∀ c ∈ symbol, isMark c = false) (h : Lowers cs ds)
    (head : cs.head? = ds.head?) :
    Lowers (wrap symbol cs) (wrap symbol ds) ∧ (wrap symbol cs).head? = (wrap symbol ds).head? := by
  -- The symbol goes behind a minus, so both texts must have one or neither.
  by_cases minus : cs.head? = Option.some '-'
  · obtain ⟨tail, rfl⟩ := List.head?_eq_some_iff.mp minus
    obtain ⟨ds, rfl, more⟩ := h.exists_of_cons (by decide)
    exact ⟨.char (by decide) (.unmarked_append unmarked more), rfl⟩
  · rw [wrap_of_ne minus, wrap_of_ne (head ▸ minus)]
    refine ⟨.unmarked_append unmarked h, ?_⟩
    rw [List.head?_append_of_ne_nil _ some, List.head?_append_of_ne_nil _ some]

/-- `m` is `l` in plain characters, and both begin alike. -/
structure Matches (l m : Layout) : Prop where
  amount : Lowers l.amount m.amount
  head : l.amount.head? = m.amount.head?
  units : Lowers l.units m.units
  stop : ∀ c ∈ l.units.head?, isRaisedDigit c = false
  hasProduct : l.hasProduct = m.hasProduct

namespace Matches

theorem lowers (h : Matches l m) : Lowers (l.amount ++ l.units) (m.amount ++ m.units) :=
  h.amount.append h.units h.stop

theorem joint (h : Matches l m) (u : Factor α) :
    (l.joint .nice u = ['⋅'] ∧ m.joint .ascii u = ['*']) ∨
      l.joint .nice u = m.joint .ascii u ∧ ∀ c ∈ l.joint .nice u, isMark c = false := by
  have empty : l.amount = [] ↔ m.amount = [] := by rw [← List.head?_eq_none_iff, h.head, List.head?_eq_none_iff]
  simp only [Layout.joint, h.hasProduct, ne_eq, empty]
  split_ifs
  · exact .inl ⟨rfl, rfl⟩
  · exact .inr ⟨rfl, by simp [isMark, isRaisedDigit, raisedDigits]⟩
  · exact .inr ⟨rfl, by simp⟩

theorem joint_append (h : Matches l m) (u : Factor α) (more : Lowers cs ds) (stop : ∀ c ∈ cs.head?, isRaisedDigit c = false) :
    Lowers (l.joint .nice u ++ cs) (m.joint .ascii u ++ ds) ∧ ∀ c ∈ (l.joint .nice u ++ cs).head?, isRaisedDigit c = false := by
  rcases h.joint u with ⟨dot, star⟩ | ⟨same, unmarked⟩
  · rw [dot, star]
    exact ⟨.dot more, by simp [isRaisedDigit, raisedDigits]⟩
  · rw [← same]
    refine ⟨.unmarked_append unmarked more, head?_append_stop ?_ stop⟩
    exact fun c head => isRaisedDigit_of_unmarked (unmarked c (List.mem_of_mem_head? head))

/-- Divisors, currencies and products keep layouts alike. -/
theorem add (h : Matches l m) (hu : u.Unmarked) : Matches (l.add .nice u) (m.add .ascii u) := by
  unfold Layout.add
  split_ifs
  · -- A divisor.
    have slash : ∀ c ∈ ('/' :: u.renderReciprocal .nice).head?, isRaisedDigit c = false := by
      simp [isRaisedDigit, raisedDigits]
    exact { h with
      units := h.units.append (.char (by decide) (hu.renderPower _)) slash
      stop := head?_append_stop h.stop slash }
  · -- A currency around the amount.
    obtain ⟨amount, head⟩ := wrap_lowers hu.nonempty hu.symbol h.amount h.head
    refine { h with amount := amount.append_unmarked hu.pre, head := ?_ }
    rw [List.head?_append, List.head?_append, head]
  · -- A unit after the others or after the amount.
    obtain ⟨joined, stop⟩ := h.joint_append u (hu.renderPower u.exponent.val) hu.stop
    simp only [List.append_assoc]
    exact { h with
      units := h.units.append joined stop
      stop := head?_append_stop h.stop stop
      hasProduct := rfl }

theorem foldl (h : Matches l m) (unmarked : ∀ u ∈ us, u.Unmarked) :
    Matches (us.foldl (Layout.add .nice) l) (us.foldl (Layout.add .ascii) m) := by
  induction us generalizing l m with
  | nil => exact h
  | cons u us ih =>
    rw [List.forall_mem_cons] at unmarked
    exact ih (h.add unmarked.1) unmarked.2

end Matches

end Quantity.Layout

/-! ### Texts -/

namespace Quantity

variable [Scalar α] {q : Quantity α}

theorem lowers_text (amount : Lowers (Style.nice.amount q.amount) (Style.ascii.amount q.amount))
    (head : (Style.nice.amount q.amount).head? = (Style.ascii.amount q.amount).head?)
    (unmarked : ∀ u ∈ q.units, u.Unmarked) (parts : Parts) :
    Lowers (q.text parts .nice).toList (q.text parts .ascii).toList := by
  have start : Layout.Matches ⟨if parts.hasAmount then Style.nice.amount q.amount else [], [], false⟩
      ⟨if parts.hasAmount then Style.ascii.amount q.amount else [], [], false⟩ := by
    refine ⟨?_, ?_, .nil, nofun, rfl⟩
    · split_ifs
      · exact amount
      · exact .nil
    · split_ifs
      · exact head
      · rfl
  unfold text
  dsimp only
  by_cases shown : parts.hasUnits = true
  · rw [if_pos shown, if_pos shown, String.toList_ofList, String.toList_ofList]
    exact (start.foldl unmarked).lowers
  · rw [if_neg shown, if_neg shown, String.toList_ofList, String.toList_ofList]
    exact start.amount

end Quantity

namespace Registry

variable {q : Quantity Float} {parts : Parts}

/-- No symbol of a built-in unit or a prefix has a raised digit, a cross or a dot. -/
theorem symbols_unmarked : ∀ s ∈ Builtin.symbols ++ Prefix.symbols, s.toList.all (!isMark ·) = true := by
  decide +kernel

theorem standard_unmarked {u : Factor Float} (member : u.base ∈ standard.units) (tabled : ∀ p ∈ u.pre, p ∈ Prefix.all) :
    u.Unmarked := by
  have unmarked : ∀ s ∈ Builtin.symbols ++ Prefix.symbols, ∀ c ∈ s.toList, isMark c = false := by
    simpa using symbols_unmarked
  rw [List.forall_mem_append] at unmarked
  refine ⟨(standard_legible u.base member).nonempty, unmarked.1 _ ?_, ?_⟩
  · have symbols : standard.units.map (·.symbol) = Builtin.symbols := by
      rw [standard_units, map_symbol_numbered, Builtin.map_symbol_units]
    rw [← symbols]
    exact List.mem_map_of_mem member
  · unfold Factor.prefixSymbol?
    cases found : u.pre with
    | none => nofun
    | some p =>
      have listed : p.symbol ∈ (Prefix.all : List (Prefix Float)).map (·.symbol) := List.mem_map_of_mem (tabled p found)
      exact unmarked.2 _ listed

theorem lower_format (covers : standard.Covers q.units) (tabled : ∀ u ∈ q.units, ∀ p ∈ u.pre, p ∈ Prefix.all)
    (shown : parts ≠ .neither) : ∃ nice ascii, q.format parts .nice = .ok nice ∧ q.format parts .ascii = .ok ascii ∧
      String.ofList (lower nice.toList) = ascii := by
  have unmarked : ∀ u ∈ q.units, u.Unmarked := fun u member => standard_unmarked (covers u member) (tabled u member)
  have amount : Lowers (Style.nice.amount q.amount) (Style.ascii.amount q.amount) := Numeral.lowers_ofFloat q.amount
  have head : (Style.nice.amount q.amount).head? = (Style.ascii.amount q.amount).head? :=
    Numeral.head?_nice (Numeral.mantissa_ofFloat q.amount).1
  refine ⟨q.text parts .nice, q.text parts .ascii, if_neg shown, if_neg shown, ?_⟩
  rw [(Quantity.lowers_text amount head unmarked parts).lower_eq, String.ofList_toList]

/-- The ascii text of a quantity of built-in units is the plain form of its nice text. Raised integers and the nice
numerals of doubles are read back from their plain form. -/
theorem standard_lower_format :
    (∀ (q : Quantity Float) (parts : Parts), standard.Covers q.units → (∀ u ∈ q.units, ∀ p ∈ u.pre, p ∈ Prefix.all) →
      parts ≠ .neither → ∃ nice ascii, q.format parts .nice = .ok nice ∧ q.format parts .ascii = .ok ascii ∧
        String.ofList (lower nice.toList) = ascii) ∧
    (∀ n : Int, lower (superscript n) = plain n ∧ readInt? (lower (superscript n)) = some n) ∧
    ∀ x : Float, Numeral.split (Numeral.ofFloat x).plain = Numeral.ofFloat x ∧
      lower (Numeral.ofFloat x).nice = (Numeral.ofFloat x).plain ∧
      Decimal.readFloat? (lower (Numeral.ofFloat x).nice) = some x := by
  refine ⟨fun _ _ => lower_format, fun n => ?_, fun x => ?_⟩
  · have plain := (Lowers.superscript n).lower_eq
    exact ⟨plain, by rw [plain, readInt?_plain]⟩
  · have plain := (Numeral.lowers_ofFloat x).lower_eq
    exact ⟨Numeral.split_plain_ofFloat x, plain, by rw [plain, Decimal.readFloat?_plain_ofFloat]⟩

/-- A quantity that the two styles write differently wherever they can. -/
def styledLoss : Quantity Float :=
  ⟨-1.5e20, [⟨Builtin.dollar, some Builtin.mega, 1⟩, ⟨Builtin.metre, some Builtin.kilo, .squared⟩,
    ⟨Builtin.hour, none, 1⟩, ⟨Builtin.second, none, .least⟩]⟩

theorem styledLoss_covers : standard.Covers styledLoss.units := by
  simp only [styledLoss, covers_cons]
  exact ⟨Builtin.dollar_mem, Builtin.metre_mem, Builtin.hour_mem, Builtin.second_mem, covers_nil⟩

theorem styledLoss_tabled : ∀ u ∈ styledLoss.units, ∀ p ∈ u.pre, p ∈ Prefix.all := by
  have mega : Builtin.mega ∈ Prefix.all := List.mem_of_getElem? (i := 8) rfl
  have kilo : Builtin.kilo ∈ Prefix.all := List.mem_of_getElem? (i := 9) rfl
  simp [styledLoss, mega, kilo]

theorem standard_lower_format_sample :
    styledLoss.format .both .nice = .ok "-$1.5×10²⁰M km²⋅h/s²¹⁴⁷⁴⁸³⁶⁴⁸" ∧
      styledLoss.format .both .ascii = .ok "-$1.5e20M km2*h/s2147483648" ∧
      String.ofList (lower "-$1.5×10²⁰M km²⋅h/s²¹⁴⁷⁴⁸³⁶⁴⁸".toList) = "-$1.5e20M km2*h/s2147483648" := by
  have texts : styledLoss.format .both .nice = .ok "-$1.5×10²⁰M km²⋅h/s²¹⁴⁷⁴⁸³⁶⁴⁸" ∧
      styledLoss.format .both .ascii = .ok "-$1.5e20M km2*h/s2147483648" := by
    decide +kernel
  obtain ⟨nice, ascii, first, second, lowered⟩ := standard_lower_format.1 styledLoss .both styledLoss_covers styledLoss_tabled
    (by decide)
  cases texts.1.symm.trans first
  cases texts.2.symm.trans second
  exact ⟨texts.1, texts.2, lowered⟩

end Registry

end Metrology
