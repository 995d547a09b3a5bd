import Mathlib.Data.List.Infix
import Mathlib.Tactic.Ring

namespace Webtrans.Data

/-! Big-endian integers and parsers that read only what they consume.

`beNat` and `beBytes` are the meaning of network-order integers.  A parser is
`Local` when every success depends on the consumed bytes alone, so that
successes compose under concatenation and survive any continuation. -/

def beNat : List UInt8 → Nat
  | [] => 0
  | byte :: rest => byte.toNat * 256 ^ rest.length + beNat rest

def beBytes : Nat → Nat → List UInt8
  | 0, _ => []
  | count + 1, value => UInt8.ofNat (value / 256 ^ count) :: beBytes count value

@[simp] theorem beBytes_length (count value : Nat) : (beBytes count value).length = count := by
  induction count with
  | zero => rfl
  | succ count ih => simp [beBytes, ih]

theorem beNat_lt (bytes : List UInt8) : beNat bytes < 256 ^ bytes.length := by
  induction bytes with
  | nil => simp [beNat]
  | cons byte rest ih =>
      have bound : byte.toNat + 1 ≤ 256 := byte.toNat_lt
      have scaled := Nat.mul_le_mul_right (256 ^ rest.length) bound
      simp only [beNat, List.length_cons, Nat.pow_succ, Nat.add_mul] at *
      omega

theorem beNat_beBytes (count value : Nat) : beNat (beBytes count value) = value % 256 ^ count := by
  induction count with
  | zero => simp [beBytes, beNat, Nat.mod_one]
  | succ count ih =>
      have byte : (UInt8.ofNat (value / 256 ^ count)).toNat = value / 256 ^ count % 256 := by
        simp only [UInt8.toNat_ofNat', Nat.reducePow]
      rw [beBytes, beNat, ih, beBytes_length, byte, Nat.pow_succ, Nat.mod_mul, Nat.mul_comm,
        Nat.add_comm]

theorem beBytes_beNat (bytes : List UInt8) : beBytes bytes.length (beNat bytes) = bytes := by
  suffices shifted : ∀ high, beBytes bytes.length (high * 256 ^ bytes.length + beNat bytes) = bytes by
    simpa using shifted 0
  induction bytes with
  | nil => intro high; rfl
  | cons byte rest ih =>
      intro high
      have tail := beNat_lt rest
      have positive : 0 < 256 ^ rest.length := Nat.pow_pos (by decide)
      have regroup : high * 256 ^ (rest.length + 1) + (byte.toNat * 256 ^ rest.length + beNat rest) =
          (high * 256 + byte.toNat) * 256 ^ rest.length + beNat rest := by ring
      simp only [List.length_cons, beBytes, beNat, regroup, ih, List.cons.injEq, and_true]
      rw [Nat.add_comm, Nat.add_mul_div_right _ _ positive, Nat.div_eq_of_lt tail, Nat.zero_add]
      apply UInt8.toNat_inj.mp
      have bound := byte.toNat_lt
      simp only [UInt8.toNat_ofNat']
      omega

theorem beNat_injective {left right : List UInt8} (length : left.length = right.length)
    (same : beNat left = beNat right) : left = right := by
  rw [← beBytes_beNat left, length, same, beBytes_beNat]

theorem beBytes_congr {count left right : Nat} (same : left % 256 ^ count = right % 256 ^ count) :
    beBytes count left = beBytes count right := by
  have leftBytes := beBytes_beNat (beBytes count left)
  have rightBytes := beBytes_beNat (beBytes count right)
  rw [beNat_beBytes, beBytes_length] at leftBytes rightBytes
  rw [← leftBytes, ← rightBytes, same]

/-- A parser over a byte buffer: a value and the bytes it left unread. -/
abbrev Parser (ε : Type u) (α : Type v) := List UInt8 → Except ε (α × List UInt8)

namespace Parser

variable {ε : Type u} {α : Type v}

/-- On these bytes the parser returns the value and stops, whatever follows. -/
def Reads (parser : Parser ε α) (bytes : List UInt8) (value : α) : Prop :=
  ∀ rest, parser (bytes ++ rest) = .ok (value, rest)

/-- Every success is determined by the bytes it consumed. -/
def Local (parser : Parser ε α) : Prop :=
  ∀ ⦃input value rest⦄, parser input = .ok (value, rest) →
    ∃ bytes, input = bytes ++ rest ∧ parser.Reads bytes value

theorem Reads.alone {parser : Parser ε α} {bytes : List UInt8} {value : α}
    (reads : parser.Reads bytes value) : parser bytes = .ok (value, []) := by
  simpa using reads []

/-- What a parser reads off a buffer is told by the buffer. -/
theorem Reads.append_inj {parser : Parser ε α} {left right leftRest rightRest : List UInt8} {x y : α}
    (leftReads : parser.Reads left x) (rightReads : parser.Reads right y)
    (same : left ++ leftRest = right ++ rightRest) : left = right ∧ leftRest = rightRest := by
  have decoded := leftReads leftRest
  rw [same, rightReads rightRest] at decoded
  cases decoded
  exact ⟨List.append_cancel_right same, rfl⟩

theorem Local.append {parser : Parser ε α} (isLocal : parser.Local)
    {input rest : List UInt8} {value : α} (decoded : parser input = .ok (value, rest))
    (more : List UInt8) : parser (input ++ more) = .ok (value, rest ++ more) := by
  obtain ⟨consumed, rfl, reads⟩ := isLocal decoded
  rw [List.append_assoc]
  exact reads _

/-- What a parser makes of a buffer that holds a front part of a stream which
starts with bytes it can read: too little, or exactly that value. -/
theorem Reads.on_prefix {parser : Parser ε α} (isLocal : parser.Local)
    {bytes : List UInt8} {value : α} (reads : parser.Reads bytes value)
    {buffer unread rest : List UInt8} (split : buffer ++ unread = bytes ++ rest) :
    (∃ error, parser buffer = .error error ∧ buffer.length < bytes.length) ∨
      ∃ behind, parser buffer = .ok (value, behind) ∧ buffer = bytes ++ behind ∧
        behind ++ unread = rest := by
  by_cases short : buffer.length < bytes.length
  · left
    cases decoded : parser buffer with
    | error error => exact ⟨error, rfl, short⟩
    | ok result =>
        obtain ⟨other, behind⟩ := result
        have extended := isLocal.append decoded unread
        rw [split, reads rest] at extended
        cases extended
        have lengths := congrArg List.length split
        simp only [List.length_append] at lengths
        omega
  · right
    obtain ⟨behind, rfl⟩ : bytes <+: buffer := by
      have front : bytes <+: buffer ++ unread := split ▸ List.prefix_append bytes rest
      exact List.prefix_of_prefix_length_le front (List.prefix_append buffer unread) (by omega)
    rw [List.append_assoc] at split
    exact ⟨behind, reads behind, rfl, List.append_cancel_left split⟩

section Items

variable {σ : Type w} {item : Parser ε α} {accept : σ → α → Except ε σ}

def Shrinks (item : Parser ε α) : Prop :=
  ∀ ⦃input value rest⦄, item input = .ok (value, rest) → rest.length < input.length

/-- Read items while bytes remain, and fold them into a state. -/
def foldItems (item : Parser ε α) (shrinks : item.Shrinks) (accept : σ → α → Except ε σ) (state : σ)
    (input : List UInt8) : Except ε σ :=
  if input.isEmpty then .ok state
  else
    match _read : item input with
    | .error error => .error error
    | .ok (value, rest) =>
        match accept state value with
        | .error error => .error error
        | .ok state => foldItems item shrinks accept state rest
termination_by input.length
decreasing_by exact shrinks _read

variable {shrinks : item.Shrinks}

@[simp] theorem foldItems_nil (state : σ) : foldItems item shrinks accept state [] = .ok state := by
  rw [foldItems]
  rfl

theorem foldItems_read {input rest : List UInt8} {value : α} (nonempty : input ≠ []) (state : σ)
    (read : item input = .ok (value, rest)) :
    foldItems item shrinks accept state input =
      (accept state value >>= fun state => foldItems item shrinks accept state rest) := by
  rw [foldItems, if_neg (by simpa using nonempty)]
  split
  next failed =>
    rw [read] at failed
    cases failed
  next found =>
    rw [read] at found
    cases found
    cases accept state value <;> rfl

theorem foldItems_failed {input : List UInt8} {error : ε} (nonempty : input ≠ []) (state : σ)
    (failed : item input = .error error) : foldItems item shrinks accept state input = .error error := by
  rw [foldItems, if_neg (by simpa using nonempty)]
  split
  next found =>
    rw [failed] at found
    cases found
    rfl
  next read =>
    rw [failed] at read
    cases read

theorem foldItems_keeps (kept : σ → Prop) (keeps : ∀ {state value after},
      accept state value = .ok after → kept state → kept after)
    {state after : σ} {input : List UInt8} (folded : foldItems item shrinks accept state input = .ok after)
    (start : kept state) : kept after := by
  induction size : input.length using Nat.strong_induction_on generalizing state input with
  | h size ih =>
      subst size
      by_cases empty : input = []
      · subst empty
        rw [foldItems_nil] at folded
        cases folded
        exact start
      · cases read : item input with
        | error error =>
            rw [foldItems_failed empty state read] at folded
            cases folded
        | ok result =>
            obtain ⟨value, rest⟩ := result
            rw [foldItems_read empty state read] at folded
            cases accepted : accept state value with
            | error error =>
                rw [accepted] at folded
                cases folded
            | ok next =>
                rw [accepted] at folded
                exact ih _ (shrinks read) folded (keeps accepted start) rfl

theorem foldItems_ne_error {error : ε} (itemNe : ∀ input, item input ≠ .error error)
    (acceptNe : ∀ state value, accept state value ≠ .error error) (state : σ) (input : List UInt8) :
    foldItems item shrinks accept state input ≠ .error error := by
  induction size : input.length using Nat.strong_induction_on generalizing state input with
  | h size ih =>
      subst size
      by_cases empty : input = []
      · rw [empty, foldItems_nil]
        exact nofun
      · cases read : item input with
        | error other =>
            rw [foldItems_failed empty state read]
            intro same
            cases same
            exact itemNe input read
        | ok result =>
            obtain ⟨value, rest⟩ := result
            rw [foldItems_read empty state read]
            cases accepted : accept state value with
            | error other =>
                intro same
                cases same
                exact acceptNe state value accepted
            | ok next => exact ih _ (shrinks read) next rest rfl

/-- Reading spelled items is folding their values. -/
theorem foldItems_flatMap {γ : Type u'} {bytes : γ → List UInt8} {value : γ → α}
    (reads : ∀ x, item.Reads (bytes x) (value x)) (state : σ) (items : List γ) :
    foldItems item shrinks accept state (items.flatMap bytes) =
      (items.map value).foldlM accept state := by
  induction items generalizing state with
  | nil => exact foldItems_nil state
  | cons x items ih =>
      have read := reads x (items.flatMap bytes)
      have nonempty : bytes x ++ items.flatMap bytes ≠ [] := by
        intro empty
        have shorter := shrinks read
        rw [empty] at shorter
        exact Nat.not_lt_zero _ shorter
      rw [List.flatMap_cons, foldItems_read nonempty state read, List.map_cons, List.foldlM_cons]
      cases accept state (value x) with
      | error error => rfl
      | ok next => exact ih next

/-- Where every item read is a spelled one, a fold that succeeds has read
nothing else. -/
theorem foldItems_ok_iff {γ : Type u'} {bytes : γ → List UInt8} {value : γ → α}
    (reads : ∀ x, item.Reads (bytes x) (value x))
    (spelled : ∀ {input rest y}, item input = .ok (y, rest) → ∃ x, input = bytes x ++ rest ∧ value x = y)
    (state after : σ) (input : List UInt8) :
    foldItems item shrinks accept state input = .ok after ↔
      ∃ items : List γ, input = items.flatMap bytes ∧ (items.map value).foldlM accept state = .ok after := by
  constructor
  · intro folded
    induction size : input.length using Nat.strong_induction_on generalizing state input with
    | h size ih =>
        subst size
        by_cases empty : input = []
        · subst empty
          rw [foldItems_nil] at folded
          exact ⟨[], rfl, folded⟩
        · cases read : item input with
          | error error =>
              rw [foldItems_failed empty state read] at folded
              cases folded
          | ok result =>
              obtain ⟨y, rest⟩ := result
              rw [foldItems_read empty state read] at folded
              cases accepted : accept state y with
              | error error =>
                  rw [accepted] at folded
                  cases folded
              | ok next =>
                  rw [accepted] at folded
                  obtain ⟨items, rfl, later⟩ := ih _ (shrinks read) next _ folded rfl
                  obtain ⟨x, rfl, rfl⟩ := spelled read
                  refine ⟨x :: items, rfl, ?_⟩
                  rw [List.map_cons, List.foldlM_cons, accepted]
                  exact later
  · intro ⟨items, split, folded⟩
    rw [split, foldItems_flatMap reads, folded]

end Items

end Parser

end Webtrans.Data
