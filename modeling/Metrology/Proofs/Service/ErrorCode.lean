import Metrology.Proofs.Arithmetic.Failure
import Metrology.Service.Operation

/-!
The codes of errors. A request is `Invalid` where its operation or the number or form of its arguments is wrong,
`Unrendered` where it asks for a text of nothing, and `Mismatched` where the units of its quantities differ. Each
has a code of its own, and whatever else fails is an error of format. Main statement: `reports_ofLine`.
-/

namespace Metrology
open Outcome Registry

variable {style : Style} {op : Operation} {args : List String} {e : Refusal} {text parts n name : String}
  {c : Constant} {q a b : Quantity Float} {line code : String} {request : Request}

/-- A refusal has the code that one of the causes calls for, or that of an error of format. -/
inductive Refusal.DueTo (e : Refusal) (invalid unrendered mismatched : Prop) : Prop where
  | format : e.code = "FORMAT_ERROR" → DueTo e invalid unrendered mismatched
  | invalid : e.code = "INVALID_REQUEST" → invalid → DueTo e invalid unrendered mismatched
  | unrendered : e.code = "RENDER_ERROR" → unrendered → DueTo e invalid unrendered mismatched
  | mismatched : e.code = "INCOMPATIBLE_UNITS" → mismatched → DueTo e invalid unrendered mismatched

/-! ### Constants -/

namespace Constant

theorem quantity_code {failure : Error} (h : c.quantity standard = .error failure) : failure.code = .format := by
  cases c with
  | dirac =>
    rcases bind_error h with unread | ⟨_, -, h⟩
    · exact parseWithAmount_code unread
    · exact divide_code h
  | fineStructure => cases h
  | _ => exact parseWithAmount_code h

theorem named?_eq_none_iff : named? name = none ↔ ∀ c : Constant, c.name ≠ name := by
  rw [named?, List.find?_eq_none]
  constructor
  · intro unknown c
    have listed : c ∈ all := by cases c <;> decide
    simpa using unknown c listed
  · intro unknown c _
    simpa using unknown c

end Constant

namespace Operation

/-! ### Requests that are refused -/

/-- How many arguments an operation takes. -/
def counts : Operation → List Nat
  | parse | reduce | kind | constant => [1]
  | format => [1, 2]
  | add | subtract | multiply | divide | pow | convert | compatible => [2]

/-- The arguments are not of the number or the form that the operation takes. -/
inductive Invalid : Operation → List String → Prop where
  | count {op : Operation} {args : List String} : args.length ∉ op.counts → Invalid op args
  | exponent {text n : String} : Exponent.ofChars? (Text.trim n.toList) = none → Invalid pow [text, n]
  | parts {text parts : String} : parts ∉ ["both", "amount", "units", "none"] → Invalid format [text, parts]
  | constant {name : String} : (∀ c : Constant, c.name ≠ name) → Invalid constant [name]

/-- A quantity is to be written without its amount and without its units. -/
inductive Unrendered : Operation → List String → Prop where
  | format {text : String} {q : Quantity Float} : standard.parse text = .ok q → Unrendered format [text, "none"]

/-- Quantities are to be combined that reduce to different units. -/
inductive Mismatched : Operation → List String → Prop where
  | add {text text' : String} {a b : Quantity Float} : standard.parse text = .ok a → standard.parse text' = .ok b →
      standard.Differ a b → Mismatched add [text, text']
  | subtract {text text' : String} {a b : Quantity Float} : standard.parse text = .ok a →
      standard.parse text' = .ok b → standard.Differ a b → Mismatched subtract [text, text']
  | convert {text target : String} {q p t : Quantity Float} : standard.parse text = .ok q →
      standard.Aims target p t → standard.Differ q p → Mismatched convert [text, target]

/-! ### Reading arguments -/

theorem orFail_error {β : Type} {x : Except Error β} (h : orFail x = .error e) :
    ∃ failure, x = .error failure ∧ e = .failed failure := by
  cases x with
  | error failure => exact ⟨failure, rfl, (Except.error.inj h).symm⟩
  | ok _ => cases h

theorem readQuantity_error (h : readQuantity text = .error e) : e.code = "FORMAT_ERROR" := by
  obtain ⟨failure, unread, rfl⟩ := orFail_error h
  exact congrArg ErrorCode.text (parse_code unread)

theorem readQuantity_ok (parsed : standard.parse text = .ok q) : readQuantity text = .ok q := by
  rw [readQuantity, parsed]
  rfl

/-- What follows a quantity fails, unless the quantity cannot be read. -/
theorem readQuantity_bind {β : Type} {f : Quantity Float → Except Refusal β} (h : readQuantity text >>= f = .error e) :
    e.code = "FORMAT_ERROR" ∨ ∃ q, standard.parse text = .ok q ∧ f q = .error e := by
  rcases bind_error h with unread | ⟨q, read, h⟩
  · exact .inl (readQuantity_error unread)
  · cases parsed : standard.parse text with
    | error failure =>
      rw [readQuantity, parsed] at read
      cases read
    | ok q' =>
      rw [readQuantity_ok parsed] at read
      obtain rfl := Except.ok.inj read
      exact .inr ⟨q', rfl, h⟩

theorem readExponent_error :
    readExponent n = .error e ↔ e = .invalidExponent n ∧ Exponent.ofChars? (Text.trim n.toList) = none := by
  unfold readExponent
  cases Exponent.ofChars? (Text.trim n.toList) <;> simp [eq_comm]

theorem readParts_error :
    readParts parts = .error e ↔ e = .invalidParts parts ∧ parts ∉ ["both", "amount", "units", "none"] := by
  unfold readParts
  split
  case h_5 => simp_all [eq_comm]
  all_goals simp

/-- Only one word leaves out both parts. -/
theorem readParts_neither (h : readParts parts = .ok .neither) : parts = "none" := by
  unfold readParts at h
  split at h <;> first | rfl | cases h

theorem readConstant_error : readConstant name = .error e ↔
    e = .unknownConstant name (Constant.all.map (·.name)) ∧ ∀ c : Constant, c.name ≠ name := by
  rw [← Constant.named?_eq_none_iff, readConstant]
  cases Constant.named? name <;> simp [eq_comm]

/-! ### The error of an operation -/

theorem run_of_count (wrong : args.length ∉ op.counts) :
    op.run style args = .error (.argumentCount op.name op.arity args.length) := by
  unfold run
  split
  case h_14 => rfl
  all_goals simp [counts] at wrong

/-- The error of an operation on its arguments has the code that its cause calls for. -/
def Explained (op : Operation) (args : List String) (e : Refusal) : Prop :=
  e.DueTo (op.Invalid args) (op.Unrendered args) (op.Mismatched args)

/-- What the engine fails on is what a result made of it fails on. -/
theorem orFail_pure {β γ : Type} {x : Except Error β} {f : β → γ} (h : (do return f (← orFail x)) = .error e) :
    ∃ failure, x = .error failure ∧ e = .failed failure := by
  rcases bind_error h with failed | ⟨y, -, h⟩
  · exact orFail_error failed
  · cases h

theorem explained_quantity {f : Quantity Float → Except Refusal Json} (h : readQuantity text >>= f = .error e)
    (rest : ∀ q, standard.parse text = .ok q → f q = .error e → Explained op args e) : Explained op args e := by
  rcases readQuantity_bind h with format | ⟨q, parsed, h⟩
  · exact .format format
  · exact rest q parsed h

theorem explained_units {β : Type} {x : Except Error β} {f : β → Json} (h : (do return f (← orFail x)) = .error e)
    (cases : ∀ failure, x = .error failure →
      failure.code = .format ∨ failure.code = .incompatibleUnits ∧ op.Mismatched args) : Explained op args e := by
  obtain ⟨failure, failed, rfl⟩ := orFail_pure h
  rcases cases failure failed with format | ⟨units, mismatched⟩
  · exact .format (congrArg ErrorCode.text format)
  · exact .mismatched (congrArg ErrorCode.text units) mismatched

theorem explained_format {β : Type} {x : Except Error β} {f : β → Json} (h : (do return f (← orFail x)) = .error e)
    (format : ∀ failure, x = .error failure → failure.code = .format) : Explained op args e :=
  explained_units h fun failure failed => .inl (format failure failed)

theorem explained_binary {f : Registry Float → Quantity Float → Quantity Float → Except Error (Quantity Float)}
    {text' : String} (h : run.binary style f text text' = .error e)
    (cases : ∀ a b, standard.parse text = .ok a → standard.parse text' = .ok b → ∀ failure, f standard a b = .error failure →
      failure.code = .format ∨ failure.code = .incompatibleUnits ∧ op.Mismatched args) : Explained op args e := by
  refine explained_quantity h fun a first h => explained_quantity h fun b second h => ?_
  exact explained_units h (cases a b first second)

theorem explained_formatted {shown : Parts} (h : run.formatted style text shown = .error e)
    (unrendered : ∀ q, standard.parse text = .ok q → shown = .neither → op.Unrendered args) : Explained op args e := by
  refine explained_quantity h fun q parsed h => ?_
  obtain ⟨failure, failed, rfl⟩ := orFail_pure h
  obtain ⟨nothing, rfl⟩ := Quantity.format_error failed
  exact .unrendered rfl (unrendered q parsed nothing)

theorem exists_of_one (right : args.length ∈ [1]) : ∃ text, args = [text] :=
  List.length_eq_one_iff.mp (List.mem_singleton.mp right)

theorem exists_of_two (right : args.length ∈ [2]) : ∃ text text', args = [text, text'] :=
  List.length_eq_two.mp (List.mem_singleton.mp right)

theorem run_explained (h : op.run style args = .error e) : Explained op args e := by
  have indexed := standard_indexed
  have acyclic := standard_acyclic
  by_cases right : args.length ∈ op.counts
  · cases op with
    | parse =>
      obtain ⟨text, rfl⟩ := exists_of_one right
      refine explained_quantity h fun q _ h => ?_
      cases h
    | reduce =>
      obtain ⟨text, rfl⟩ := exists_of_one right
      refine explained_quantity h fun q _ h => ?_
      exact explained_format h fun _ => reduce_code
    | add =>
      obtain ⟨text, text', rfl⟩ := exists_of_two right
      refine explained_binary h fun a b first second failure failed => ?_
      exact (add_code indexed acyclic (covers_parse indexed first) (covers_parse indexed second) failed).imp id
        (And.imp id (.add first second))
    | subtract =>
      obtain ⟨text, text', rfl⟩ := exists_of_two right
      refine explained_binary h fun a b first second failure failed => ?_
      exact (subtract_code indexed acyclic (covers_parse indexed first) (covers_parse indexed second) failed).imp id
        (And.imp id (.subtract first second))
    | multiply =>
      obtain ⟨text, text', rfl⟩ := exists_of_two right
      exact explained_binary h fun a b _ _ failure failed => .inl (multiply_code failed)
    | divide =>
      obtain ⟨text, text', rfl⟩ := exists_of_two right
      exact explained_binary h fun a b _ _ failure failed => .inl (divide_code failed)
    | pow =>
      obtain ⟨text, n, rfl⟩ := exists_of_two right
      -- the exponent is read before the quantity
      rcases bind_error h with unread | ⟨m, -, h⟩
      · obtain ⟨rfl, foreign⟩ := readExponent_error.mp unread
        exact .invalid rfl (.exponent foreign)
      · refine explained_quantity h fun q _ h => ?_
        exact explained_format h fun _ failed => (Quantity.pow_error failed).code
    | convert =>
      obtain ⟨text, target, rfl⟩ := exists_of_two right
      refine explained_quantity h fun q parsed h => ?_
      refine explained_units h fun failure failed => ?_
      refine (convert_code indexed acyclic (covers_parse indexed parsed) failed).imp id (And.imp id ?_)
      rintro ⟨p, t, aims, differ⟩
      exact .convert parsed aims differ
    | compatible =>
      obtain ⟨text, text', rfl⟩ := exists_of_two right
      refine explained_quantity h fun a _ h => explained_quantity h fun b _ h => ?_
      exact explained_format h fun _ => compatible_code
    | format =>
      rcases List.mem_cons.mp right with one | two
      · obtain ⟨text, rfl⟩ := List.length_eq_one_iff.mp one
        exact explained_formatted h fun q _ neither => nomatch neither
      · obtain ⟨text, parts, rfl⟩ := exists_of_two two
        -- and so are the parts
        rcases bind_error h with unread | ⟨shown, read, h⟩
        · obtain ⟨rfl, unknown⟩ := readParts_error.mp unread
          exact .invalid rfl (.parts unknown)
        · refine explained_formatted h ?_
          rintro q parsed rfl
          obtain rfl := readParts_neither read
          exact .format parsed
    | kind =>
      obtain ⟨text, rfl⟩ := exists_of_one right
      refine explained_quantity h fun q _ h => ?_
      exact explained_format h fun _ => classify_code
    | constant =>
      obtain ⟨name, rfl⟩ := exists_of_one right
      rcases bind_error h with unread | ⟨c, -, h⟩
      · obtain ⟨rfl, unknown⟩ := readConstant_error.mp unread
        exact .invalid rfl (.constant unknown)
      · exact explained_format h fun _ => Constant.quantity_code
  · rw [run_of_count right] at h
    obtain rfl := Except.error.inj h
    exact .invalid rfl (.count right)

/-! ### The causes are certain -/

theorem Invalid.refused (invalid : op.Invalid args) :
    ∃ e, op.run style args = .error e ∧ e.code = "INVALID_REQUEST" := by
  cases invalid with
  | count wrong => exact ⟨_, run_of_count wrong, rfl⟩
  | exponent foreign => exact ⟨_, bind_of_error (readExponent_error.mpr ⟨rfl, foreign⟩) _, rfl⟩
  | parts unknown => exact ⟨_, bind_of_error (readParts_error.mpr ⟨rfl, unknown⟩) _, rfl⟩
  | constant unknown => exact ⟨_, bind_of_error (readConstant_error.mpr ⟨rfl, unknown⟩) _, rfl⟩

theorem Unrendered.refused (unrendered : op.Unrendered args) :
    ∃ e, op.run style args = .error e ∧ e.code = "RENDER_ERROR" := by
  obtain ⟨parsed⟩ := unrendered
  refine ⟨.failed .emptyRendering, ?_, rfl⟩
  show (readQuantity _ >>= _) = _
  rw [readQuantity_ok parsed]
  rfl

/-- The quantities are read before they are combined. -/
theorem binary_refused {f : Registry Float → Quantity Float → Quantity Float → Except Error (Quantity Float)}
    {text' : String} (first : standard.parse text = .ok a) (second : standard.parse text' = .ok b)
    (h : ∃ failure, f standard a b = .error failure ∧ failure.code = .incompatibleUnits) :
    ∃ e, run.binary style f text text' = .error e ∧ e.code = "INCOMPATIBLE_UNITS" := by
  obtain ⟨failure, failed, code⟩ := h
  refine ⟨.failed failure, ?_, congrArg ErrorCode.text code⟩
  unfold run.binary
  rw [readQuantity_ok first, readQuantity_ok second]
  show (orFail (f standard a b) >>= _) = _
  rw [failed]
  rfl

theorem Mismatched.refused (mismatched : op.Mismatched args) :
    ∃ e, op.run style args = .error e ∧ e.code = "INCOMPATIBLE_UNITS" := by
  have indexed := standard_indexed
  have acyclic := standard_acyclic
  cases mismatched with
  | add first second differ =>
    exact binary_refused first second
      (differ.add indexed acyclic (covers_parse indexed first) (covers_parse indexed second))
  | subtract first second differ =>
    exact binary_refused first second
      (differ.subtract indexed acyclic (covers_parse indexed first) (covers_parse indexed second))
  | convert parsed aims differ =>
    obtain ⟨failure, failed, code⟩ := differ.convert indexed acyclic (covers_parse indexed parsed) aims
    refine ⟨.failed failure, ?_, congrArg ErrorCode.text code⟩
    show (readQuantity _ >>= _) = _
    rw [readQuantity_ok parsed]
    show (orFail (standard.convert _ _) >>= _) = _
    rw [failed]
    rfl

theorem named?_eq_some_iff : named? name = some op ↔ op.name = name := by
  constructor
  · intro found
    simpa using List.find?_some found
  · rintro rfl
    cases op <;> rfl

end Operation

/-! ### Lines -/

namespace Request

/-- The request names an operation whose arguments are as `P` says. -/
def Calls (request : Request) (P : Operation → List String → Prop) : Prop :=
  ∃ op : Operation, op.name = request.operation ∧ P op request.arguments

/-- The operation is unknown, or its arguments are not of the number or the form that it takes. -/
def Invalid (request : Request) : Prop :=
  (∀ op : Operation, op.name ≠ request.operation) ∨ request.Calls Operation.Invalid

theorem run_of_name (named : op.name = request.operation) :
    request.run style = op.run (request.style.getD style) request.arguments := by
  rw [run, Operation.named?_eq_some_iff.mpr named]

theorem run_of_unknown (unknown : ∀ op : Operation, op.name ≠ request.operation) :
    request.run style = .error (.unknownOperation request.operation) := by
  have missing : Operation.named? request.operation = none :=
    Option.eq_none_iff_forall_ne_some.mpr fun op found => unknown op (Operation.named?_eq_some_iff.mp found)
  rw [run, missing]

theorem run_dueTo (h : request.run style = .error e) :
    e.DueTo request.Invalid (request.Calls Operation.Unrendered) (request.Calls Operation.Mismatched) := by
  by_cases known : ∃ op : Operation, op.name = request.operation
  · obtain ⟨op, named⟩ := known
    rw [run_of_name named] at h
    cases Operation.run_explained h with
    | format code => exact .format code
    | invalid code invalid => exact .invalid code (.inr ⟨op, named, invalid⟩)
    | unrendered code unrendered => exact .unrendered code ⟨op, named, unrendered⟩
    | mismatched code mismatched => exact .mismatched code ⟨op, named, mismatched⟩
  · have unknown : ∀ op : Operation, op.name ≠ request.operation := not_exists.mp known
    rw [run_of_unknown unknown] at h
    obtain rfl := Except.error.inj h
    exact .invalid rfl (.inl unknown)

theorem Invalid.refused (invalid : request.Invalid) :
    ∃ e, request.run style = .error e ∧ e.code = "INVALID_REQUEST" := by
  rcases invalid with unknown | ⟨op, named, invalid⟩
  · exact ⟨_, run_of_unknown unknown, rfl⟩
  · rw [run_of_name named]
    exact invalid.refused

end Request

namespace Response

/-- What is written for a response is an error of this code. -/
def Reports (response : Response) (code : String) : Prop :=
  ∃ id message, response.toJson =
    .object (id ++ [("error", .object [("code", .string code), ("message", .string message)])])

theorem reports_iff {response : Response} :
    response.Reports code ↔ ∃ e, response.outcome = .error e ∧ e.code = code := by
  obtain ⟨id, outcome⟩ := response
  constructor
  · rintro ⟨id', message, written⟩
    cases outcome with
    | ok result =>
      have last := List.append_inj_right' (Json.object.inj written) rfl
      simp at last
    | error e =>
      have last := List.append_inj_right' (Json.object.inj written) rfl
      cases last
      exact ⟨e, rfl, rfl⟩
  · rintro ⟨e, rfl, rfl⟩
    exact ⟨_, e.message, rfl⟩

/-- A response has one code at most. -/
theorem Reports.unique {response : Response} {code' : String} (h : response.Reports code)
    (h' : response.Reports code') : code = code' := by
  obtain ⟨e, outcome, rfl⟩ := reports_iff.mp h
  obtain ⟨e', outcome', rfl⟩ := reports_iff.mp h'
  rw [outcome] at outcome'
  rw [Except.error.inj outcome']

/-- The code of the error for a line that deserialises to a request tells what is wrong with the request. It
is the code of format exactly if there is an error for none of the other causes, and the codes of an unknown
prefix and of a duplicate symbol are never reported. -/
theorem reports_ofLine (style : Style) (h : Request.read? line = some request) :
    ((ofLine style line).Reports "RENDER_ERROR" ↔ request.Calls Operation.Unrendered) ∧
      ((ofLine style line).Reports "INCOMPATIBLE_UNITS" ↔ request.Calls Operation.Mismatched) ∧
      ((ofLine style line).Reports "INVALID_REQUEST" ↔ request.Invalid) ∧
      ((ofLine style line).Reports "FORMAT_ERROR" ↔ (∃ code, (ofLine style line).Reports code) ∧
        ¬request.Calls Operation.Unrendered ∧ ¬request.Calls Operation.Mismatched ∧ ¬request.Invalid) ∧
      ¬(ofLine style line).Reports "UNKNOWN_PREFIX" ∧ ¬(ofLine style line).Reports "DUPLICATE_SYMBOL" := by
  have outcome : (ofLine style line).outcome = request.run style := by
    rw [ofLine, h]
    rfl
  have dueTo : ∀ {code}, (ofLine style line).Reports code →
      code = "FORMAT_ERROR" ∨ code = "INVALID_REQUEST" ∧ request.Invalid ∨
        code = "RENDER_ERROR" ∧ request.Calls Operation.Unrendered ∨
        code = "INCOMPATIBLE_UNITS" ∧ request.Calls Operation.Mismatched := by
    intro code reported
    obtain ⟨e, failed, rfl⟩ := reports_iff.mp reported
    rw [outcome] at failed
    cases Request.run_dueTo failed <;> simp_all
  have invalid : request.Invalid → (ofLine style line).Reports "INVALID_REQUEST" := by
    intro invalid
    rw [reports_iff, outcome]
    exact invalid.refused
  have unrendered : request.Calls Operation.Unrendered → (ofLine style line).Reports "RENDER_ERROR" := by
    rintro ⟨op, named, unrendered⟩
    rw [reports_iff, outcome, Request.run_of_name named]
    exact unrendered.refused
  have mismatched : request.Calls Operation.Mismatched → (ofLine style line).Reports "INCOMPATIBLE_UNITS" := by
    rintro ⟨op, named, mismatched⟩
    rw [reports_iff, outcome, Request.run_of_name named]
    exact mismatched.refused
  -- what is reported for a cause has its code, since the codes of the causes are different
  refine ⟨⟨fun reported => ?_, unrendered⟩, ⟨fun reported => ?_, mismatched⟩, ⟨fun reported => ?_, invalid⟩, ⟨?_, ?_⟩,
    fun reported => ?_, fun reported => ?_⟩
  · simpa using dueTo reported
  · simpa using dueTo reported
  · simpa using dueTo reported
  · intro reported
    refine ⟨⟨_, reported⟩, fun cause => ?_, fun cause => ?_, fun cause => ?_⟩
    · simpa using reported.unique (unrendered cause)
    · simpa using reported.unique (mismatched cause)
    · simpa using reported.unique (invalid cause)
  · rintro ⟨⟨code, reported⟩, rendered, matched, valid⟩
    obtain rfl : code = "FORMAT_ERROR" := by simpa [rendered, matched, valid] using dueTo reported
    exact reported
  · simpa using dueTo reported
  · simpa using dueTo reported

theorem differ_metre_kelvin :
    standard.Differ ⟨Scalar.one, [⟨Builtin.metre, none, 1⟩]⟩ ⟨Scalar.one, [⟨Builtin.kelvin, none, 1⟩]⟩ := by
  obtain ⟨s, first⟩ := isOk_iff.mp
    (show (standard.reduce ⟨Scalar.one, [⟨Builtin.metre, none, 1⟩]⟩).isOk = true by decide +kernel)
  obtain ⟨t, second⟩ := isOk_iff.mp
    (show (standard.reduce ⟨Scalar.one, [⟨Builtin.kelvin, none, 1⟩]⟩).isOk = true by decide +kernel)
  have different : standard.compatible ⟨Scalar.one, [⟨Builtin.metre, none, 1⟩]⟩
      ⟨Scalar.one, [⟨Builtin.kelvin, none, 1⟩]⟩ = .ok false := by
    decide +kernel
  refine ⟨s, t, first, second, ?_⟩
  rw [compatible_eq first second, Except.ok.injEq, ← Bool.not_eq_true] at different
  rwa [Ne, ← sameUnits_iff_units standard_indexed standard_acyclic (covers_singleton.mpr Builtin.metre_mem)
    (covers_singleton.mpr Builtin.kelvin_mem) first second]

/-- Metres are neither added to kelvins, nor raised to a word, nor written without both parts. -/
theorem reports_ofLine_samples :
    (ofLine .nice "[null, \"add\", [\"m\", \"K\"]]").Reports "INCOMPATIBLE_UNITS" ∧
      (ofLine .nice "[null, \"pow\", [\"m\", \"two\"]]").Reports "INVALID_REQUEST" ∧
      (ofLine .nice "[null, \"format\", [\"m\", \"none\"]]").Reports "RENDER_ERROR" := by
  have read : ∀ line name args, (Request.read? line).map (fun r => (r.operation, r.arguments)) = some (name, args) →
      ∃ request, Request.read? line = some request ∧ request.operation = name ∧ request.arguments = args := by
    intro line name args h
    obtain ⟨request, read, fields⟩ := Option.map_eq_some_iff.mp h
    exact ⟨request, read, congrArg Prod.fst fields, congrArg Prod.snd fields⟩
  refine ⟨?_, ?_, ?_⟩
  · obtain ⟨request, given, name, arguments⟩ :=
      read "[null, \"add\", [\"m\", \"K\"]]" "add" ["m", "K"] (by decide +kernel)
    obtain ⟨-, reported, -⟩ := reports_ofLine .nice given
    refine reported.mpr ⟨.add, name.symm, ?_⟩
    rw [arguments]
    exact .add builtin_parse_metre builtin_parse_kelvin differ_metre_kelvin
  · obtain ⟨request, given, name, arguments⟩ :=
      read "[null, \"pow\", [\"m\", \"two\"]]" "pow" ["m", "two"] (by decide +kernel)
    obtain ⟨-, -, reported, -⟩ := reports_ofLine .nice given
    refine reported.mpr (.inr ⟨.pow, name.symm, ?_⟩)
    rw [arguments]
    exact .exponent (by decide +kernel)
  · obtain ⟨request, given, name, arguments⟩ :=
      read "[null, \"format\", [\"m\", \"none\"]]" "format" ["m", "none"] (by decide +kernel)
    obtain ⟨reported, -⟩ := reports_ofLine .nice given
    refine reported.mpr ⟨.format, name.symm, ?_⟩
    rw [arguments]
    exact .format builtin_parse_metre

end Response

end Metrology
