import Webtrans.Data.Bytes

namespace Webtrans.Data.Parser

/-! Parsers over input that arrives in parts.

A caller that holds a front part of its input runs the parser on what it has,
and again on more when the parser reports an unexpected end. -/

variable {δ ε : Type u} {κ α : Type v}

/-- Whatever has arrived, more input can make the parser succeed. -/
def Completable (parser : Parser ε α) : Prop :=
  ∀ input, ∃ more value rest, parser (input ++ more) = .ok (value, rest)

/-- One error of a parser says exactly that more input is needed: any other
result stays when `second` runs on the longer input, the input of a success is
too short wherever it is cut, and there is input to go on with. -/
structure RetriesOn (first second : Parser ε α) (unexpectedEnd : ε) (same : List UInt8 → ε → ε → Prop) :
    Prop where
  ok : ∀ {input value rest}, first input = .ok (value, rest) →
    ∀ more, second (input ++ more) = .ok (value, rest ++ more)
  error : ∀ {input error}, first input = .error error → error ≠ unexpectedEnd →
    ∀ more, ∃ later, second (input ++ more) = .error later ∧ later ≠ unexpectedEnd ∧ same input error later
  cut : ∀ {front back value rest}, first (front ++ (back ++ rest)) = .ok (value, rest) → back ≠ [] →
    second front = .error unexpectedEnd
  goesOn : ∀ input, ∃ more, second (input ++ more) ≠ .error unexpectedEnd

/-- Read with one parser, and go on with another that depends on the value. -/
def andThen (head : Parser δ κ) (unexpectedEnd : ε) (next : κ → Parser ε α) : Parser ε α := fun input =>
  match head input with
  | .error _ => .error unexpectedEnd
  | .ok (value, rest) => next value rest

/-- Read nothing. -/
def always (result : Except ε α) : Parser ε α := fun input =>
  result.map fun value => (value, input)

variable {head : Parser δ κ} {unexpectedEnd : ε}

theorem andThen_ok {next : κ → Parser ε α} {input rest : List UInt8} {value : κ}
    (read : head input = .ok (value, rest)) : head.andThen unexpectedEnd next input = next value rest := by
  rw [andThen, read]

theorem andThen_error {next : κ → Parser ε α} {input : List UInt8} {error : δ}
    (failed : head input = .error error) : head.andThen unexpectedEnd next input = .error unexpectedEnd := by
  rw [andThen, failed]

namespace RetriesOn

theorem mono {first second : Parser ε α} {same other : List UInt8 → ε → ε → Prop}
    (retries : RetriesOn first second unexpectedEnd same)
    (weaker : ∀ input error later, same input error later → other input error later) :
    RetriesOn first second unexpectedEnd other where
  ok := retries.ok
  error failed differs more := by
    obtain ⟨later, laterFailed, laterDiffers, alike⟩ := retries.error failed differs more
    exact ⟨later, laterFailed, laterDiffers, weaker _ _ _ alike⟩
  cut := retries.cut
  goesOn := retries.goesOn

/-- Results that do not look at the input, as two runs find them. -/
theorem always {left right : Except ε α} (accepts : ∀ value, left = .ok value → right = .ok value)
    (errors : ∀ error, left = .error error → error ≠ unexpectedEnd → ∃ later, right = .error later)
    (complete : right ≠ .error unexpectedEnd) :
    RetriesOn (Parser.always left) (Parser.always right) unexpectedEnd
      fun _ error later => left = .error error ∧ right = .error later where
  ok {input value rest} read more := by
    cases found : left with
    | error error =>
        rw [Parser.always, found] at read
        cases read
    | ok result =>
        rw [Parser.always, found] at read
        cases read
        rw [Parser.always, accepts _ found]
        rfl
  error {input error} failed differs more := by
    cases found : left with
    | ok value =>
        rw [Parser.always, found] at failed
        cases failed
    | error other =>
        rw [Parser.always, found] at failed
        cases failed
        obtain ⟨later, laterFound⟩ := errors error found differs
        refine ⟨later, ?_, fun same => complete (same ▸ laterFound), rfl, laterFound⟩
        rw [Parser.always, laterFound]
        rfl
  cut {front back value rest} read nonempty := by
    cases found : left with
    | error error =>
        rw [Parser.always, found] at read
        cases read
    | ok result =>
        rw [Parser.always, found] at read
        obtain ⟨_, all⟩ := Prod.mk.inj (Except.ok.inj read)
        have lengths := congrArg List.length all
        have positive := List.length_pos_iff.mpr nonempty
        simp only [List.length_append] at lengths
        omega
  goesOn input := by
    refine ⟨[], fun failed => ?_⟩
    cases found : right with
    | ok value =>
        rw [Parser.always, found] at failed
        cases failed
    | error error =>
        rw [Parser.always, found] at failed
        cases failed
        exact complete found

/-- A parser that reports every failure of its head as the unexpected end. -/
theorem andThen {first second : κ → Parser ε α} {same : κ → List UInt8 → ε → ε → Prop}
    (isLocal : head.Local) (completable : head.Completable)
    (each : ∀ value, RetriesOn (first value) (second value) unexpectedEnd (same value)) :
    RetriesOn (head.andThen unexpectedEnd first) (head.andThen unexpectedEnd second) unexpectedEnd
      fun input error later => ∃ value rest, head input = .ok (value, rest) ∧ same value rest error later where
  ok {input value rest} read more := by
    cases headRead : head input with
    | error error =>
        rw [andThen_error headRead] at read
        cases read
    | ok result =>
        obtain ⟨unit, behind⟩ := result
        rw [andThen_ok headRead] at read
        rw [andThen_ok (isLocal.append headRead more)]
        exact (each unit).ok read more
  error {input error} failed differs more := by
    cases headRead : head input with
    | error other =>
        rw [andThen_error headRead] at failed
        cases failed
        exact absurd rfl differs
    | ok result =>
        obtain ⟨unit, behind⟩ := result
        rw [andThen_ok headRead] at failed
        obtain ⟨later, laterFailed, laterDiffers, alike⟩ := (each unit).error failed differs more
        refine ⟨later, ?_, laterDiffers, unit, behind, rfl, alike⟩
        rw [andThen_ok (isLocal.append headRead more), laterFailed]
  cut {front back value rest} read nonempty := by
    cases headRead : head (front ++ (back ++ rest)) with
    | error error =>
        rw [andThen_error headRead] at read
        cases read
    | ok result =>
        obtain ⟨unit, behind⟩ := result
        rw [andThen_ok headRead] at read
        obtain ⟨bytes, split, reads⟩ := isLocal headRead
        -- The cut falls into the head, or behind it.
        rcases reads.on_prefix isLocal split with ⟨error, failed, _⟩ | ⟨middle, headFront, _, back⟩
        · exact andThen_error failed
        · rw [andThen_ok headFront]
          rw [← back] at read
          exact (each unit).cut read nonempty
  goesOn input := by
    obtain ⟨more, unit, rest, headRead⟩ := completable input
    obtain ⟨further, goesOn⟩ := (each unit).goesOn rest
    refine ⟨more ++ further, ?_⟩
    rw [← List.append_assoc, andThen_ok (isLocal.append headRead further)]
    exact goesOn

theorem always_same {result : Except ε α} (complete : result ≠ .error unexpectedEnd) :
    RetriesOn (Parser.always result) (Parser.always result) unexpectedEnd
      fun _ error later => error = later := by
  refine (always (fun _ => id) (fun error failed _ => ⟨error, failed⟩) complete).mono ?_
  intro input error later both
  exact Except.error.inj (both.1.symm.trans both.2)

/-- The errors behind the head are compared without a look at the input. -/
theorem andThen_uniform {first second : κ → Parser ε α} {same : ε → ε → Prop} (isLocal : head.Local)
    (completable : head.Completable)
    (each : ∀ value, RetriesOn (first value) (second value) unexpectedEnd fun _ => same) :
    RetriesOn (head.andThen unexpectedEnd first) (head.andThen unexpectedEnd second) unexpectedEnd
      fun _ => same := by
  refine (andThen isLocal completable each).mono ?_
  intro input error later found
  obtain ⟨_, _, _, alike⟩ := found
  exact alike

end RetriesOn

end Webtrans.Data.Parser
