import Webtrans.Data.Arrival

namespace Webtrans.Data

/-! One direction of a reliable stream that carries one message, from the buffer
of its writer to the reader at the other end.  The transport takes what it likes
of the buffer and hands over what it likes of that, in order. -/

structure Pipe (ι : Type u) where
  /-- What the writer has still to hand over. -/
  buf : List UInt8 := []
  inFlight : List UInt8 := []
  /-- The end of the stream is on its way behind the bytes. -/
  finished : Bool := false
  recv : ByteStream ι := ⟨[], .waiting⟩
  /-- The message, once its writer has begun. -/
  sent : Option (List UInt8) := none
  /-- The reader has returned it. -/
  taken : Bool := false
deriving DecidableEq

namespace Pipe

variable {ι : Type u}

def begin_ (message : List UInt8) (pipe : Pipe ι) : Pipe ι :=
  { pipe with buf := message, sent := some message }

/-- The transport accepts bytes of the buffer. -/
def write (count : Nat) (pipe : Pipe ι) : Option (Pipe ι) :=
  if 0 < count ∧ count ≤ pipe.buf.length then
    some { pipe with buf := pipe.buf.drop count, inFlight := pipe.inFlight ++ pipe.buf.take count }
  else none

def deliver [DecidableEq ι] (count : Nat) (pipe : Pipe ι) : Option (Pipe ι) :=
  if 0 < count ∧ count ≤ pipe.inFlight.length ∧ pipe.recv.ending = .waiting then
    some { pipe with
      inFlight := pipe.inFlight.drop count
      recv := pipe.recv.continued (pipe.inFlight.take count) .waiting }
  else none

def finish (pipe : Pipe ι) : Pipe ι :=
  { pipe with finished := true }

def deliverEnd [DecidableEq ι] (pipe : Pipe ι) : Option (Pipe ι) :=
  if pipe.finished = true ∧ pipe.inFlight = [] ∧ pipe.recv.ending = .waiting then
    some { pipe with recv := { pipe.recv with ending := .finished } }
  else none

/-- The reader's end breaks off. -/
def fail (error : ι) (pipe : Pipe ι) : Pipe ι :=
  match pipe.recv.ending with
  | .waiting => { pipe with recv := { pipe.recv with ending := .failed error } }
  | _ => pipe

def take (recv : ByteStream ι) (pipe : Pipe ι) : Pipe ι :=
  { pipe with recv, taken := true }

/-- Everything that was or will be written and has not been read. -/
def content (pipe : Pipe ι) : List UInt8 :=
  pipe.recv.bytes ++ pipe.inFlight ++ pipe.buf

/-- Until it is taken the message is in the pipe, all of it and nothing else. -/
structure Valid (pipe : Pipe ι) : Prop where
  content : pipe.content = if pipe.taken then [] else pipe.sent.getD []
  begun : pipe.taken = true → pipe.sent ≠ none

variable {pipe next : Pipe ι} {count : Nat}

theorem valid_empty : ({} : Pipe ι).Valid :=
  ⟨rfl, nofun⟩

theorem Valid.unsent (valid : pipe.Valid) (sent : pipe.sent = none) :
    pipe.taken = false ∧ pipe.recv.bytes = [] ∧ pipe.inFlight = [] ∧ pipe.buf = [] := by
  have untaken : pipe.taken = false := by
    by_contra taken
    exact valid.begun (by simpa using taken) sent
  have empty := valid.content
  rw [untaken, sent, Pipe.content, List.append_assoc] at empty
  obtain ⟨arrived, unread⟩ := List.append_eq_nil_iff.mp empty
  exact ⟨untaken, arrived, List.append_eq_nil_iff.mp unread⟩

theorem Valid.untaken (valid : pipe.Valid) (untaken : pipe.taken = false) {message : List UInt8}
    (sent : pipe.sent = some message) : pipe.recv.bytes ++ (pipe.inFlight ++ pipe.buf) = message := by
  have carries := valid.content
  rw [untaken, sent, Pipe.content, List.append_assoc] at carries
  exact carries

theorem Valid.emptied (valid : pipe.Valid) (taken : pipe.taken = true) :
    pipe.inFlight = [] ∧ pipe.buf = [] := by
  have empty := valid.content
  rw [taken, Pipe.content, List.append_assoc] at empty
  exact List.append_eq_nil_iff.mp (List.append_eq_nil_iff.mp empty).2

theorem Valid.begin_ (valid : pipe.Valid) (sent : pipe.sent = none) (message : List UInt8) :
    (pipe.begin_ message).Valid := by
  obtain ⟨untaken, arrived, landed, _⟩ := valid.unsent sent
  constructor
  · rw [Pipe.content, Pipe.begin_]
    dsimp only
    rw [arrived, landed, untaken]
    rfl
  · intro taken
    exact absurd (untaken.symm.trans taken) (by decide)

/-- What the transport does to a pipe: the content stays. -/
structure Carried (pipe next : Pipe ι) : Prop where
  content : next.content = pipe.content
  sent : next.sent = pipe.sent
  taken : next.taken = pipe.taken

theorem Carried.valid (carried : Carried pipe next) (valid : pipe.Valid) : next.Valid := by
  constructor
  · rw [carried.content, carried.sent, carried.taken, valid.content]
  · rw [carried.sent, carried.taken]
    exact valid.begun

theorem carried_finish (pipe : Pipe ι) : Carried pipe pipe.finish :=
  ⟨rfl, rfl, rfl⟩

theorem carried_fail (error : ι) (pipe : Pipe ι) : Carried pipe (pipe.fail error) := by
  rw [fail]
  split
  · exact ⟨rfl, rfl, rfl⟩
  · exact ⟨rfl, rfl, rfl⟩

theorem write_cases (written : pipe.write count = some next) :
    0 < count ∧ count ≤ pipe.buf.length ∧ Carried pipe next ∧
      next = { pipe with buf := pipe.buf.drop count, inFlight := pipe.inFlight ++ pipe.buf.take count } := by
  rw [write] at written
  split at written
  case isTrue fits =>
    cases written
    refine ⟨fits.1, fits.2, ⟨?_, rfl, rfl⟩, rfl⟩
    simp only [content, List.append_assoc, List.take_append_drop]
  case isFalse => cases written

theorem deliver_cases [DecidableEq ι] (delivered : pipe.deliver count = some next) :
    0 < count ∧ count ≤ pipe.inFlight.length ∧ pipe.recv.ending = .waiting ∧ Carried pipe next ∧
      next = { pipe with
        inFlight := pipe.inFlight.drop count
        recv := pipe.recv.continued (pipe.inFlight.take count) .waiting } := by
  rw [deliver] at delivered
  split at delivered
  case isTrue fits =>
    obtain ⟨positive, enough, waiting⟩ := fits
    cases delivered
    refine ⟨positive, enough, waiting, ⟨?_, rfl, rfl⟩, rfl⟩
    rw [content, content, ByteStream.bytes_continued, List.append_assoc pipe.recv.bytes, List.take_append_drop]
  case isFalse => cases delivered

theorem deliverEnd_cases [DecidableEq ι] (delivered : pipe.deliverEnd = some next) :
    pipe.finished = true ∧ pipe.inFlight = [] ∧ pipe.recv.ending = .waiting ∧ Carried pipe next ∧
      next = { pipe with recv := { pipe.recv with ending := .finished } } := by
  rw [deliverEnd] at delivered
  split at delivered
  case isTrue ends =>
    cases delivered
    exact ⟨ends.1, ends.2.1, ends.2.2, ⟨rfl, rfl, rfl⟩, rfl⟩
  case isFalse => cases delivered

section Reader

variable {ε : Type v} {α : Type w} {reader : ByteStream ι → Read ι ε α}
  {message : List UInt8} {value found : α}
  {after : ByteStream ι}

/-- Who has read something has read the message, and its writer is done. -/
theorem Valid.received (valid : pipe.Valid) (untaken : pipe.taken = false)
    (receives : ∀ message, pipe.sent = some message → Receives reader message value)
    (incremental : Incremental reader) (expected : ∃ message, message ≠ [] ∧ Receives reader message value)
    (read : reader pipe.recv = .done found after) :
    ∃ message, pipe.sent = some message ∧ found = value ∧ pipe.inFlight = [] ∧ pipe.buf = [] ∧
      (pipe.take after).Valid := by
  cases sent : pipe.sent with
  | none =>
      obtain ⟨message, nonempty, receives⟩ := expected
      have arrived := (valid.unsent sent).2.1
      have split : pipe.recv.bytes ++ message = message ++ [] := by
        rw [arrived, List.nil_append, List.append_nil]
      obtain ⟨behind, front, _⟩ := receives.of_done incremental split read
      rw [arrived] at front
      exact absurd (List.append_eq_nil_iff.mp front.symm).1 nonempty
  | some message =>
      have carries := (valid.untaken untaken sent).trans (List.append_nil message).symm
      obtain ⟨behind, front, remains, same, rfl⟩ := (receives message sent).of_done incremental carries read
      obtain ⟨rfl, unsent⟩ := List.append_eq_nil_iff.mp remains
      obtain ⟨landed, written⟩ := List.append_eq_nil_iff.mp unsent
      refine ⟨message, rfl, same, landed, written, ?_, ?_⟩
      · rw [Pipe.content, Pipe.take]
        dsimp only
        rw [ByteStream.bytes_advance, front, landed, written]
        simp
      · intro _ lacks
        exact absurd (sent.symm.trans lacks) (Option.some_ne_none message)

/-- While its end is whole the reader waits for bytes that are on their way, or
returns the message. -/
theorem Valid.pending_or_received (valid : pipe.Valid) (untaken : pipe.taken = false)
    (sent : pipe.sent = some message) (receives : Receives reader message value)
    (incremental : Incremental reader)
    (whole : pipe.recv.ending ≠ .waiting → pipe.inFlight = [] ∧ pipe.buf = []) :
    (reader pipe.recv = .pending ∧ pipe.inFlight ++ pipe.buf ≠ []) ∨
      ∃ after, reader pipe.recv = .done value after := by
  have carries := (valid.untaken untaken sent).trans (List.append_nil message).symm
  obtain ⟨complete, waits, _⟩ := receives.delivers incremental pipe.recv _ [] carries
  have lengths := congrArg List.length carries
  rw [List.append_nil, List.length_append] at lengths
  by_cases short : pipe.recv.bytes.length < message.length
  · have unsent : pipe.inFlight ++ pipe.buf ≠ [] := by
      intro empty
      rw [empty, List.length_nil] at lengths
      omega
    have waiting : pipe.recv.ending = .waiting := by
      by_contra ends
      exact unsent (List.append_eq_nil_iff.mpr (whole ends))
    exact .inl ⟨waits short waiting, unsent⟩
  · exact .inr ⟨_, complete (Nat.le_of_not_lt short)⟩

/-- A reader whose stream ends behind the message does not fail. -/
theorem Valid.on_course (valid : pipe.Valid) (untaken : pipe.taken = false)
    (receives : ∀ message, pipe.sent = some message → Receives reader message value)
    (incremental : Incremental reader) (expected : ∃ message, message ≠ [] ∧ Receives reader message value)
    (whole : pipe.recv.ending ≠ .waiting → pipe.sent ≠ none ∧ pipe.inFlight = [] ∧ pipe.buf = []) :
    reader pipe.recv = .pending ∨ ∃ after, reader pipe.recv = .done value after := by
  cases sent : pipe.sent with
  | none =>
      obtain ⟨message, nonempty, receives⟩ := expected
      have arrived := (valid.unsent sent).2.1
      have split : pipe.recv.bytes ++ message = message ++ [] := by
        rw [arrived, List.nil_append, List.append_nil]
      have waiting : pipe.recv.ending = .waiting := by
        by_contra ends
        exact (whole ends).1 sent
      rcases receives.on_prefix incremental split waiting with ⟨pending, _⟩ | ⟨behind, front, _⟩
      · exact .inl pending
      · rw [arrived] at front
        exact absurd (List.append_eq_nil_iff.mp front.symm).1 nonempty
  | some message =>
      rcases valid.pending_or_received untaken sent (receives message sent) incremental
        (fun ends => (whole ends).2) with ⟨pending, _⟩ | received
      · exact .inl pending
      · exact .inr received

end Reader

end Pipe

end Webtrans.Data
