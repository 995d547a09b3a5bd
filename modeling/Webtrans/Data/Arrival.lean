import Webtrans.Data.ByteStream

namespace Webtrans.Data

/-! Readers of streams that are still arriving.

A reader that has returned has made its choice on the bytes it saw.  It would
have made the same one, and left the rest, if more bytes had been there. -/

variable {ι : Type u} {ε ε' : Type v} {α β : Type w}

namespace ByteStream

/-- The stream when these bytes have arrived as well, with what its reader
meets behind them. -/
def continued (stream : ByteStream ι) (chunk : List UInt8) (ending : Ending ι) : ByteStream ι where
  chunks := stream.chunks ++ [chunk]
  ending := ending

@[simp] theorem bytes_continued (stream : ByteStream ι) (chunk : List UInt8) (ending : Ending ι) :
    (stream.continued chunk ending).bytes = stream.bytes ++ chunk := by
  simp [continued, bytes]

@[simp] theorem ending_continued (stream : ByteStream ι) (chunk : List UInt8) (ending : Ending ι) :
    (stream.continued chunk ending).ending = ending := rfl

theorem dropBytes_append {chunks : List (List UInt8)} {count : Nat} (inside : count ≤ chunks.flatten.length)
    (more : List (List UInt8)) : dropBytes (chunks ++ more) count = dropBytes chunks count ++ more := by
  induction chunks generalizing count with
  | nil =>
      obtain rfl : count = 0 := Nat.le_zero.mp inside
      simp [dropBytes]
  | cons chunk chunks ih =>
      cases count with
      | zero => simp [dropBytes]
      | succ count =>
          rw [List.cons_append, dropBytes, dropBytes]
          by_cases first : count + 1 ≤ chunk.length
          · rw [if_pos first, if_pos first, List.cons_append]
          · rw [if_neg first, if_neg first]
            apply ih
            simp only [List.flatten_cons, List.length_append] at inside
            omega

theorem advance_continued {stream : ByteStream ι} {count : Nat} (inside : count ≤ stream.bytes.length)
    (chunk : List UInt8) (ending : Ending ι) :
    (stream.continued chunk ending).advance count = (stream.advance count).continued chunk ending := by
  simp only [continued, advance, dropBytes_append inside]

end ByteStream

namespace Read

/-- The outcome when the stream that is left goes on with these bytes. -/
def continued (read : Read ι ε α) (chunk : List UInt8) (ending : Ending ι) : Read ι ε α :=
  match read with
  | .done value stream => .done value (stream.continued chunk ending)
  | other => other

end Read

/-- The reader decides on this stream once and for all. -/
structure Decides (reader : ByteStream ι → Read ι ε α) (stream : ByteStream ι) : Prop where
  /-- A value depends on the bytes that were read alone. -/
  done : ∀ {value after}, reader stream = .done value after →
    after.ending = stream.ending ∧ after.bytes.length ≤ stream.bytes.length ∧
      ∀ chunk ending, reader (stream.continued chunk ending) = .done value (after.continued chunk ending)
  /-- So does a failure, unless it is about the end of the stream. -/
  settled : stream.ending = .waiting → reader stream ≠ .pending →
    ∀ chunk ending, reader (stream.continued chunk ending) = (reader stream).continued chunk ending
  /-- Only bytes that may still arrive are waited for. -/
  ended : stream.ending ≠ .waiting → reader stream ≠ .pending
  safe : reader stream ≠ .panicked

def Incremental (reader : ByteStream ι → Read ι ε α) : Prop :=
  ∀ stream, Decides reader stream

section Readers

variable {reader : ByteStream ι → Read ι ε α} {stream : ByteStream ι}

theorem Decides.return_ (value : α) : Decides (fun stream => (.done value stream : Read ι ε α)) stream where
  done returned := by
    cases returned
    exact ⟨rfl, Nat.le_refl _, fun _ _ => rfl⟩
  settled _ _ _ _ := rfl
  ended _ pending := by cases pending
  safe panicked := by cases panicked

theorem Decides.fail (error : ε) : Decides (fun _ => (.failed error : Read ι ε α)) stream where
  done returned := by cases returned
  settled _ _ _ _ := rfl
  ended _ pending := by cases pending
  safe panicked := by cases panicked

theorem Decides.ite {condition : Prop} [Decidable condition] {other : ByteStream ι → Read ι ε α}
    (first : condition → Decides reader stream) (second : ¬ condition → Decides other stream) :
    Decides (fun stream => if condition then reader stream else other stream) stream := by
  by_cases holds : condition
  · simp only [if_pos holds]
    exact first holds
  · simp only [if_neg holds]
    exact second holds

theorem Decides.bind {convert : ε → ε'} {next : α → ByteStream ι → Read ι ε' β}
    (first : Decides reader stream)
    (rest : ∀ value after, reader stream = .done value after → Decides (next value) after) :
    Decides (fun stream => (reader stream).bind convert next) stream where
  done {value after} returned := by
    obtain ⟨found, middle, read, continues⟩ := Read.bind_eq_done returned
    obtain ⟨ending, shorter, extends_⟩ := first.done read
    obtain ⟨endingRest, shorterRest, extendsRest⟩ := (rest found middle read).done continues
    refine ⟨endingRest.trans ending, Nat.le_trans shorterRest shorter, ?_⟩
    intro chunk later
    rw [extends_ chunk later, Read.bind_done, extendsRest chunk later]
  settled waiting finished chunk ending := by
    cases read : reader stream with
    | pending =>
        rw [read] at finished
        exact absurd rfl finished
    | panicked => exact absurd read first.safe
    | failed error =>
        have settled := first.settled waiting (by rw [read]; exact nofun) chunk ending
        rw [settled, read]
        rfl
    | done value middle =>
        obtain ⟨kept, _, extends_⟩ := first.done read
        rw [read, Read.bind_done] at finished
        rw [extends_ chunk ending, Read.bind_done, Read.bind_done]
        exact (rest value middle read).settled (kept.trans waiting) finished chunk ending
  ended ends pending := by
    cases read : reader stream with
    | pending => exact first.ended ends read
    | done value middle =>
        obtain ⟨kept, _, _⟩ := first.done read
        rw [read, Read.bind_done] at pending
        exact (rest value middle read).ended (kept ▸ ends) pending
    | _ =>
        rw [read] at pending
        cases pending
  safe panicked := by
    cases read : reader stream with
    | panicked => exact first.safe read
    | done value middle =>
        rw [read, Read.bind_done] at panicked
        exact (rest value middle read).safe panicked
    | _ =>
        rw [read] at panicked
        cases panicked

theorem Decides.readExact (eof : ι) (count : Nat) : Decides (ByteStream.readExact eof count) stream where
  done {value after} returned := by
    obtain ⟨enough, rfl, rfl⟩ := ByteStream.readExact_eq_done returned
    refine ⟨rfl, ?_, ?_⟩
    · rw [ByteStream.bytes_advance, List.length_drop]
      omega
    · intro chunk ending
      have still : count ≤ (stream.continued chunk ending).bytes.length := by
        rw [ByteStream.bytes_continued, List.length_append]
        omega
      rw [ByteStream.readExact_done still, ByteStream.bytes_continued, List.take_append_of_le_length enough,
        ByteStream.advance_continued enough]
  settled waiting finished chunk ending := by
    by_cases enough : count ≤ stream.bytes.length
    · have still : count ≤ (stream.continued chunk ending).bytes.length := by
        rw [ByteStream.bytes_continued, List.length_append]
        omega
      rw [ByteStream.readExact_done still, ByteStream.readExact_done enough, ByteStream.bytes_continued,
        List.take_append_of_le_length enough, ByteStream.advance_continued enough]
      rfl
    · rw [ByteStream.readExact_eq, if_neg enough, waiting] at finished
      exact absurd rfl finished
  ended ends pending := by
    rw [ByteStream.readExact_eq] at pending
    split at pending
    · cases pending
    · cases ending : stream.ending with
      | waiting => exact ends ending
      | _ =>
          rw [ending] at pending
          cases pending
  safe panicked := by
    rw [ByteStream.readExact_eq] at panicked
    split at panicked
    · cases panicked
    · cases ending : stream.ending <;> simp [ending] at panicked

theorem Incremental.bind {convert : ε → ε'} {next : α → ByteStream ι → Read ι ε' β}
    (first : Incremental reader)
    (rest : ∀ value, Incremental (next value)) : Incremental fun stream => (reader stream).bind convert next :=
  fun stream => (first stream).bind fun value after _ => rest value after

end Readers

/-- The reader takes exactly this message off the front of a stream. -/
def Receives (reader : ByteStream ι → Read ι ε α) (message : List UInt8) (value : α) : Prop :=
  ∀ stream rest, stream.bytes = message ++ rest → reader stream = .done value (stream.advance message.length)

section Receives

variable {reader : ByteStream ι → Read ι ε α} {message more rest : List UInt8} {value : α}
  {stream after : ByteStream ι}

/-- While a message is on its way its reader waits, and it returns with the
last byte. -/
theorem Receives.on_prefix (receives : Receives reader message value) (incremental : Incremental reader)
    (split : stream.bytes ++ more = message ++ rest) (waiting : stream.ending = .waiting) :
    (reader stream = .pending ∧ stream.bytes.length < message.length) ∨
      ∃ behind, stream.bytes = message ++ behind ∧ behind ++ more = rest ∧
        reader stream = .done value (stream.advance message.length) := by
  have lengths := congrArg List.length split
  simp only [List.length_append] at lengths
  by_cases short : stream.bytes.length < message.length
  · refine .inl ⟨?_, short⟩
    by_contra finished
    have whole := receives (stream.continued more .waiting) rest (by rw [ByteStream.bytes_continued, split])
    rw [(incremental stream).settled waiting finished more .waiting] at whole
    cases read : reader stream with
    | done found middle =>
        rw [read] at whole
        obtain ⟨_, left⟩ := Read.done.inj whole
        have left := congrArg (fun stream => stream.bytes.length) left
        simp only [ByteStream.bytes_continued, ByteStream.bytes_advance, List.length_append,
          List.length_drop] at left
        omega
    | _ =>
        rw [read] at whole
        cases whole
  · right
    obtain ⟨behind, arrived⟩ : message <+: stream.bytes := by
      have front : message <+: stream.bytes ++ more := split ▸ List.prefix_append message rest
      exact List.prefix_of_prefix_length_le front (List.prefix_append stream.bytes more) (by omega)
    rw [← arrived, List.append_assoc] at split
    exact ⟨behind, arrived.symm, List.append_cancel_left split, receives stream behind arrived.symm⟩

/-- What a reader has returned, whatever it would have met behind, is the
message at the front. -/
theorem Receives.of_done (receives : Receives reader message value) (incremental : Incremental reader)
    {found : α} (split : stream.bytes ++ more = message ++ rest) (read : reader stream = .done found after) :
    ∃ behind, stream.bytes = message ++ behind ∧ behind ++ more = rest ∧ found = value ∧
      after = stream.advance message.length := by
  obtain ⟨_, _, extends_⟩ := (incremental stream).done read
  have waiting := extends_ [] .waiting
  have split' : (stream.continued [] .waiting).bytes ++ more = message ++ rest := by
    rw [ByteStream.bytes_continued, List.append_nil, split]
  rcases receives.on_prefix incremental split' rfl with ⟨pending, _⟩ | ⟨behind, arrived, remains, _⟩
  · rw [pending] at waiting
    cases waiting
  · rw [ByteStream.bytes_continued, List.append_nil] at arrived
    have exact_ := receives stream behind arrived
    rw [read] at exact_
    obtain ⟨rfl, rfl⟩ := Read.done.inj exact_
    exact ⟨behind, arrived, remains, rfl, rfl⟩

/-- A stream that ends inside the message is an error to its reader. -/
theorem Receives.cut_short (receives : Receives reader message value) (incremental : Incremental reader)
    (split : stream.bytes ++ more = message) (unsent : more ≠ []) (ends : stream.ending ≠ .waiting) :
    ∃ error, reader stream = .failed error := by
  cases read : reader stream with
  | pending => exact absurd read ((incremental stream).ended ends)
  | panicked => exact absurd read (incremental stream).safe
  | failed error => exact ⟨error, rfl⟩
  | done found after =>
      have whole : stream.bytes ++ more = message ++ [] := by rw [split, List.append_nil]
      obtain ⟨behind, arrived, remains, _⟩ := receives.of_done incremental whole read
      exact absurd (List.append_eq_nil_iff.mp remains).2 unsent

/-- A message is read once its last byte is there, however it was cut, and the
bytes behind it are left.  Until then its reader waits, or fails where the
stream ends. -/
def Delivers (reader : ByteStream ι → Read ι ε α) (message : List UInt8) (value : α) : Prop :=
  ∀ (stream : ByteStream ι) (more rest : List UInt8), stream.bytes ++ more = message ++ rest →
    (message.length ≤ stream.bytes.length → reader stream = .done value (stream.advance message.length)) ∧
    (stream.bytes.length < message.length → stream.ending = .waiting → reader stream = .pending) ∧
    (stream.bytes.length < message.length → stream.ending ≠ .waiting → ∃ error, reader stream = .failed error)

theorem Receives.delivers (receives : Receives reader message value) (incremental : Incremental reader) :
    Delivers reader message value := by
  intro stream more rest split
  refine ⟨?_, ?_, ?_⟩
  · intro complete
    obtain ⟨behind, arrived⟩ : message <+: stream.bytes := by
      have front : message <+: stream.bytes ++ more := split ▸ List.prefix_append message rest
      exact List.prefix_of_prefix_length_le front (List.prefix_append stream.bytes more) complete
    exact receives stream behind arrived.symm
  · intro short waiting
    rcases receives.on_prefix incremental split waiting with ⟨pending, _⟩ | ⟨behind, arrived, _⟩
    · exact pending
    · rw [arrived, List.length_append] at short
      omega
  · intro short ends
    have cut : stream.bytes ++ message.drop stream.bytes.length = message := by
      have front : stream.bytes <+: message ++ rest := split ▸ List.prefix_append stream.bytes more
      obtain ⟨unsent, whole⟩ := List.prefix_of_prefix_length_le front (List.prefix_append message rest)
        (Nat.le_of_lt short)
      rw [← whole, List.drop_left]
    refine receives.cut_short incremental cut ?_ ends
    intro empty
    have lengths := congrArg List.length empty
    rw [List.length_drop, List.length_nil] at lengths
    omega

end Receives

end Webtrans.Data
