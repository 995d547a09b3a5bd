import Mathlib.Data.List.Basic

namespace Webtrans.Data

/-! Byte streams as an asynchronous reader meets them.

The transport hands over its bytes in chunks of its own choosing.  Readers that
go through `readExact` cannot tell how the bytes were cut: their outcome is a
function of `bytes` and `ending` alone. -/

/-- What a reader meets after the bytes that have arrived. -/
inductive Ending (ι : Type u) where
  | waiting
  | finished
  | failed (error : ι)
deriving DecidableEq, Repr

structure ByteStream (ι : Type u) where
  chunks : List (List UInt8)
  ending : Ending ι
deriving DecidableEq, Repr

/-- How far an asynchronous read gets on the bytes that have arrived.  A
`pending` reader keeps what it has read, so running it again from its start on
the longer stream is the same as waking it. -/
inductive Read (ι : Type u) (ε : Type v) (α : Type w) where
  | pending
  | panicked
  | failed (error : ε)
  | done (value : α) (stream : ByteStream ι)
deriving DecidableEq, Repr

variable {ι : Type u} {ε ε' : Type v} {α β : Type w}

namespace Read

/-- Convert the error of a read, or go on with its value. -/
def bind (read : Read ι ε α) (convert : ε → ε') (next : α → ByteStream ι → Read ι ε' β) :
    Read ι ε' β :=
  match read with
  | .pending => .pending
  | .panicked => .panicked
  | .failed error => .failed (convert error)
  | .done value stream => next value stream

@[simp] theorem bind_failed (error : ε) (convert : ε → ε') (next : α → ByteStream ι → Read ι ε' β) :
    (failed error : Read ι ε α).bind convert next = .failed (convert error) := rfl

@[simp] theorem bind_done (value : α) (stream : ByteStream ι) (convert : ε → ε')
    (next : α → ByteStream ι → Read ι ε' β) :
    (done value stream : Read ι ε α).bind convert next = next value stream := rfl

theorem bind_eq_done {read : Read ι ε α} {convert : ε → ε'}
    {next : α → ByteStream ι → Read ι ε' β} {value : β} {stream : ByteStream ι}
    (completed : read.bind convert next = .done value stream) :
    ∃ first middle, read = .done first middle ∧ next first middle = .done value stream := by
  cases read with
  | done first middle => exact ⟨first, middle, rfl, completed⟩
  | _ => cases completed

end Read

namespace ByteStream

def bytes (stream : ByteStream ι) : List UInt8 :=
  stream.chunks.flatten

def fill : List (List UInt8) → Nat → Option (List UInt8 × List (List UInt8))
  | chunks, 0 => some ([], chunks)
  | [], _ + 1 => none
  | chunk :: chunks, count + 1 =>
      if count + 1 ≤ chunk.length then
        some (chunk.take (count + 1), chunk.drop (count + 1) :: chunks)
      else
        match fill chunks (count + 1 - chunk.length) with
        | none => none
        | some (filled, rest) => some (chunk ++ filled, rest)

def dropBytes : List (List UInt8) → Nat → List (List UInt8)
  | chunks, 0 => chunks
  | [], _ + 1 => []
  | chunk :: chunks, count + 1 =>
      if count + 1 ≤ chunk.length then chunk.drop (count + 1) :: chunks
      else dropBytes chunks (count + 1 - chunk.length)

def advance (stream : ByteStream ι) (count : Nat) : ByteStream ι :=
  { stream with chunks := dropBytes stream.chunks count }

/-- Read exactly `count` bytes; `eof` is the error of a stream that finishes
first. -/
def readExact (eof : ι) (count : Nat) (stream : ByteStream ι) : Read ι ι (List UInt8) :=
  match fill stream.chunks count with
  | some (filled, chunks) => .done filled { stream with chunks }
  | none =>
      match stream.ending with
      | .waiting => .pending
      | .finished => .failed eof
      | .failed error => .failed error

@[simp] theorem flatten_dropBytes (chunks : List (List UInt8)) (count : Nat) :
    (dropBytes chunks count).flatten = chunks.flatten.drop count := by
  induction chunks generalizing count with
  | nil => cases count <;> simp [dropBytes]
  | cons chunk chunks ih =>
      cases count with
      | zero => rfl
      | succ count =>
          by_cases inside : count + 1 ≤ chunk.length
          · simp only [dropBytes, if_pos inside, List.flatten_cons]
            rw [List.drop_append_of_le_length inside]
          · simp only [dropBytes, if_neg inside, ih, List.flatten_cons, List.drop_append]
            rw [List.drop_eq_nil_of_le (show chunk.length ≤ count + 1 by omega), List.nil_append]

@[simp] theorem bytes_advance (stream : ByteStream ι) (count : Nat) :
    (stream.advance count).bytes = stream.bytes.drop count :=
  flatten_dropBytes stream.chunks count

@[simp] theorem ending_advance (stream : ByteStream ι) (count : Nat) :
    (stream.advance count).ending = stream.ending := rfl

theorem dropBytes_dropBytes (chunks : List (List UInt8)) (first second : Nat) :
    dropBytes (dropBytes chunks first) second = dropBytes chunks (first + second) := by
  induction chunks generalizing first second with
  | nil => cases first <;> cases second <;> simp [dropBytes]
  | cons chunk chunks ih =>
      cases first with
      | zero => simp [dropBytes]
      | succ first =>
          cases second with
          | zero => simp [dropBytes]
          | succ second =>
              have regroup : first + 1 + (second + 1) = first + second + 1 + 1 := by omega
              rw [regroup]
              by_cases inside : first + 1 ≤ chunk.length
              · by_cases still : second + 1 ≤ chunk.length - (first + 1)
                · simp only [dropBytes, if_pos inside, List.length_drop, if_pos still,
                    if_pos (show first + second + 1 + 1 ≤ chunk.length by omega), List.drop_drop]
                  rw [show first + 1 + (second + 1) = first + second + 1 + 1 by omega]
                · simp only [dropBytes, if_pos inside, List.length_drop, if_neg still,
                    if_neg (show ¬ first + second + 1 + 1 ≤ chunk.length by omega)]
                  rw [show second + 1 - (chunk.length - (first + 1)) =
                    first + second + 1 + 1 - chunk.length by omega]
              · simp only [dropBytes, if_neg inside, ih,
                  if_neg (show ¬ first + second + 1 + 1 ≤ chunk.length by omega)]
                rw [show first + 1 - chunk.length + (second + 1) =
                  first + second + 1 + 1 - chunk.length by omega]

@[simp] theorem advance_advance (stream : ByteStream ι) (first second : Nat) :
    (stream.advance first).advance second = stream.advance (first + second) := by
  simp [advance, dropBytes_dropBytes]

theorem fill_eq (chunks : List (List UInt8)) (count : Nat) :
    fill chunks count =
      if count ≤ chunks.flatten.length then
        some (chunks.flatten.take count, dropBytes chunks count)
      else none := by
  induction chunks generalizing count with
  | nil => cases count <;> simp [fill, dropBytes]
  | cons chunk chunks ih =>
      cases count with
      | zero => simp [fill, dropBytes]
      | succ count =>
          by_cases inside : count + 1 ≤ chunk.length
          · have enough : count + 1 ≤ (chunk :: chunks).flatten.length := by
              simp only [List.flatten_cons, List.length_append]
              omega
            rw [fill, if_pos inside, if_pos enough, dropBytes, if_pos inside, List.flatten_cons,
              List.take_append_of_le_length inside]
          · rw [fill, if_neg inside, ih, dropBytes, if_neg inside, List.flatten_cons,
              List.length_append, List.take_append,
              List.take_of_length_le (show chunk.length ≤ count + 1 by omega)]
            by_cases enough : count + 1 - chunk.length ≤ chunks.flatten.length
            · rw [if_pos enough, if_pos (by omega)]
            · rw [if_neg enough, if_neg (by omega)]

/-- The outcome of an exact read does not depend on how the bytes were cut. -/
theorem readExact_eq (eof : ι) (count : Nat) (stream : ByteStream ι) :
    readExact eof count stream =
      if count ≤ stream.bytes.length then
        .done (stream.bytes.take count) (stream.advance count)
      else
        match stream.ending with
        | .waiting => .pending
        | .finished => .failed eof
        | .failed error => .failed error := by
  rw [readExact]
  rw [fill_eq]
  by_cases enough : count ≤ stream.chunks.flatten.length
  · rw [if_pos enough, if_pos (show count ≤ stream.bytes.length from enough)]
    rfl
  · rw [if_neg enough, if_neg (show ¬ count ≤ stream.bytes.length from enough)]

theorem readExact_done {eof : ι} {count : Nat} {stream : ByteStream ι}
    (enough : count ≤ stream.bytes.length) :
    readExact eof count stream = .done (stream.bytes.take count) (stream.advance count) := by
  rw [readExact_eq, if_pos enough]

theorem readExact_eq_done {eof : ι} {count : Nat} {stream after : ByteStream ι} {filled : List UInt8}
    (completed : readExact eof count stream = .done filled after) :
    count ≤ stream.bytes.length ∧ filled = stream.bytes.take count ∧ after = stream.advance count := by
  rw [readExact_eq] at completed
  split at completed
  next enough =>
    cases completed
    exact ⟨enough, rfl, rfl⟩
  next =>
    split at completed <;> cases completed

/-- These bytes may still follow the ones that have arrived. -/
def MayBring (stream : ByteStream ι) (more : List UInt8) : Prop :=
  match stream.ending with
  | .waiting => True
  | .finished => more = []
  | .failed _ => False

end ByteStream

end Webtrans.Data
