import Webtrans.Proto.Readers
import Webtrans.Proto.Settings.Encode

namespace Webtrans.Proto.Settings

open Webtrans.Data Setting SettingEntry

/-! Enabling WebTransport, and what the peer concludes from the settings it
reads (`webtrans-proto/src/settings.rs`). -/

def enableWebtransportInternal (settings : Settings) (maxSessions : UInt32) (includeDeprecated : Bool) :
    Settings :=
  let max := VarInt.fromU32 maxSessions
  let settings := settings.insert enableConnectProtocol (VarInt.fromU32 1)
  let settings := settings.insert enableDatagram (VarInt.fromU32 1)
  let settings := settings.insert enableDatagramDeprecated (VarInt.fromU32 1)
  let settings := settings.insert wtEnabled (VarInt.fromU32 1)
  let settings := settings.insert webtransportMaxSessions max
  if includeDeprecated then
    let settings := settings.insert webtransportMaxSessionsDeprecated max
    settings.insert webtransportEnableDeprecated (VarInt.fromU32 1)
  else
    let settings := settings.erase webtransportMaxSessionsDeprecated
    settings.erase webtransportEnableDeprecated

/-- Including deprecated parameters for compatibility. -/
def enableWebtransport (settings : Settings) (maxSessions : UInt32) : Settings :=
  settings.enableWebtransportInternal maxSessions true

/-- Without deprecated draft parameters. -/
def enableWebtransportLatest (settings : Settings) (maxSessions : UInt32) : Settings :=
  settings.enableWebtransportInternal maxSessions false

def getInner (settings : Settings) (id : Setting) : Option Nat :=
  (settings.lookup id).map VarInt.intoInner

/-- The peer-advertised maximum number of WebTransport sessions, or 0 when
unsupported. -/
def supportsWebtransport (settings : Settings) : Nat :=
  if settings.getInner wtEnabled = some 1 ∧ settings.getInner enableDatagram = some 1 then 1
  else
    let datagram := ((settings.lookup enableDatagram).or (settings.lookup enableDatagramDeprecated)).map
      VarInt.intoInner
    if datagram ≠ some 1 then 0
    else
      match settings.lookup webtransportMaxSessions with
      | some max => max.intoInner
      | none =>
          if settings.getInner webtransportEnableDeprecated ≠ some 1 then 0
          else (settings.getInner webtransportMaxSessionsDeprecated).getD 1

def supportsWebtransportServer (settings : Settings) : Bool :=
  (settings.getInner wtEnabled == some 1 && settings.getInner enableConnectProtocol == some 1 &&
    settings.getInner enableDatagram == some 1) ||
  (settings.supportsWebtransport > 0 && (settings.lookup wtEnabled).isNone)

def supportsWebtransportClient (settings : Settings) : Bool :=
  (settings.getInner wtEnabled == some 1 && settings.getInner enableDatagram == some 1) ||
  (settings.supportsWebtransport > 0 && (settings.lookup wtEnabled).isNone)

/-- A call that enables WebTransport. -/
inductive EnableCall where
  | compatible (maxSessions : UInt32)
  | latest (maxSessions : UInt32)
deriving DecidableEq, Repr

namespace EnableCall

def apply (settings : Settings) : EnableCall → Settings
  | compatible maxSessions => settings.enableWebtransport maxSessions
  | latest maxSessions => settings.enableWebtransportLatest maxSessions

def isLatest : EnableCall → Bool
  | compatible _ => false
  | latest _ => true

end EnableCall

/-- The settings after the calls, one after another. -/
def enabled (start : Settings) (calls : List EnableCall) (last : EnableCall) : Settings :=
  last.apply (calls.foldl EnableCall.apply start)

theorem lookup_internal (settings : Settings) (maxSessions : UInt32) (includeDeprecated : Bool)
    (id : Setting) :
    (settings.enableWebtransportInternal maxSessions includeDeprecated).lookup id =
      if id = webtransportEnableDeprecated then if includeDeprecated then some (VarInt.fromU32 1) else none
      else if id = webtransportMaxSessionsDeprecated then
        if includeDeprecated then some (VarInt.fromU32 maxSessions) else none
      else if id = webtransportMaxSessions then some (VarInt.fromU32 maxSessions)
      else if id = wtEnabled ∨ id = enableDatagramDeprecated ∨ id = enableDatagram ∨
        id = enableConnectProtocol then some (VarInt.fromU32 1)
      else settings.lookup id := by
  rw [enableWebtransportInternal]
  cases includeDeprecated <;>
    simp only [lookup_insert_ite, lookup_erase_ite, if_true, Bool.false_eq_true, if_false] <;>
    split_ifs <;> simp_all

variable (settings : Settings) (call : EnableCall)

theorem lookup_apply_of_ne {id : Setting} (current : id ≠ webtransportEnableDeprecated)
    (sessions : id ≠ webtransportMaxSessionsDeprecated) (max : id ≠ webtransportMaxSessions)
    (flag : id = wtEnabled ∨ id = enableDatagramDeprecated ∨ id = enableDatagram ∨
      id = enableConnectProtocol) :
    (call.apply settings).lookup id = some (VarInt.fromU32 1) := by
  cases call with
  | compatible maxSessions =>
      exact (lookup_internal settings maxSessions true id).trans
        (by rw [if_neg current, if_neg sessions, if_neg max, if_pos flag])
  | latest maxSessions =>
      exact (lookup_internal settings maxSessions false id).trans
        (by rw [if_neg current, if_neg sessions, if_neg max, if_pos flag])

theorem lookup_wtEnabled : (call.apply settings).lookup wtEnabled = some (VarInt.fromU32 1) :=
  lookup_apply_of_ne settings call (by decide) (by decide) (by decide) (by decide)

theorem lookup_enableDatagram : (call.apply settings).lookup enableDatagram = some (VarInt.fromU32 1) :=
  lookup_apply_of_ne settings call (by decide) (by decide) (by decide) (by decide)

theorem lookup_enableConnectProtocol :
    (call.apply settings).lookup enableConnectProtocol = some (VarInt.fromU32 1) :=
  lookup_apply_of_ne settings call (by decide) (by decide) (by decide) (by decide)

theorem lookup_enableDatagramDeprecated :
    (call.apply settings).lookup enableDatagramDeprecated = some (VarInt.fromU32 1) :=
  lookup_apply_of_ne settings call (by decide) (by decide) (by decide) (by decide)

theorem lookup_webtransportEnableDeprecated :
    (call.apply settings).lookup webtransportEnableDeprecated =
      if call.isLatest then none else some (VarInt.fromU32 1) := by
  cases call with
  | compatible maxSessions => exact lookup_internal settings maxSessions true _
  | latest maxSessions => exact lookup_internal settings maxSessions false _

theorem lookup_webtransportMaxSessionsDeprecated (latest : call.isLatest = true) :
    (call.apply settings).lookup webtransportMaxSessionsDeprecated = none := by
  cases call with
  | compatible maxSessions => cases latest
  | latest maxSessions => exact lookup_internal settings maxSessions false _

/-- A call overwrites or removes every boolean, whatever the map held. -/
theorem boolean_apply : (call.apply settings).Boolean := by
  have one : ¬ (VarInt.fromU32 1).intoInner > 1 := by decide
  intro id value found offends
  obtain ⟨boolean, above⟩ := offends
  simp only [booleans, List.mem_cons, List.not_mem_nil, or_false] at boolean
  dsimp only at boolean above
  have value_ : value = VarInt.fromU32 1 := by
    obtain rfl | rfl | rfl | rfl | rfl := boolean
    · exact (Option.some.inj ((lookup_enableConnectProtocol settings call).symm.trans found)).symm
    · exact (Option.some.inj ((lookup_enableDatagram settings call).symm.trans found)).symm
    · exact (Option.some.inj ((lookup_enableDatagramDeprecated settings call).symm.trans found)).symm
    · rw [lookup_webtransportEnableDeprecated] at found
      split at found
      · cases found
      · exact (Option.some.inj found).symm
    · exact (Option.some.inj ((lookup_wtEnabled settings call).symm.trans found)).symm
  rw [value_] at above
  exact one above

theorem lookup_withoutGrease {id : Setting} (ordinary : id.isGrease = false) :
    settings.withoutGrease.lookup id = settings.lookup id := by
  rw [withoutGrease, lookup_filterKeys, ordinary]
  rfl

variable {settings} in
/-- The three predicates hold of a map with the flags of the current draft. -/
theorem supports_of_flags (enabled : settings.lookup wtEnabled = some (VarInt.fromU32 1))
    (datagram : settings.lookup enableDatagram = some (VarInt.fromU32 1))
    (connect : settings.lookup enableConnectProtocol = some (VarInt.fromU32 1)) :
    settings.supportsWebtransportServer = true ∧ settings.supportsWebtransportClient = true ∧
      settings.supportsWebtransport = 1 := by
  have inner : ∀ {id}, settings.lookup id = some (VarInt.fromU32 1) → settings.getInner id = some 1 := by
    intro id found
    rw [getInner, found]
    rfl
  refine ⟨?_, ?_, ?_⟩
  · rw [supportsWebtransportServer, inner enabled, inner connect, inner datagram]
    rfl
  · rw [supportsWebtransportClient, inner enabled, inner datagram]
    rfl
  · rw [supportsWebtransport, if_pos ⟨inner enabled, inner datagram⟩]

theorem read_controlStream {settings : Settings} (boolean : settings.Boolean) (iteration : settings.Iteration)
    (fits : payloadLen iteration ≤ maxSettingsFrameSize) {stream : ByteStream IoError} {rest : List UInt8}
    (arrived : stream.bytes = (controlStream iteration).bytes ++ rest) :
    read stream = .done settings.withoutGrease (stream.advance (controlStream iteration).bytes.length) := by
  have decoded : decode stream.bytes = .ok (settings.withoutGrease, rest) := by
    rw [arrived, decode_controlStream_encode, foldlM_accept_order boolean]
    rfl
  have consumed : stream.bytes.length - rest.length = (controlStream iteration).bytes.length := by
    rw [arrived, List.length_append, Nat.add_sub_cancel]
  rw [← consumed]
  refine (read_agrees.accepts stream _ _).mpr ⟨rest, decoded, ?_, rfl⟩
  intro typ behind typDecoded
  let run := FrameRun.only (controlStream iteration).frame (controlStream iteration).frame_ordinary
  have split : stream.bytes = UniStream.control.encode ++ (run.bytes ++ rest) := by
    rw [arrived, ControlStream.bytes, List.append_assoc]
    rfl
  have control := VarInt.decode_reads_encode UniStream.control.typ (run.bytes ++ rest)
  rw [split] at typDecoded
  cases control.symm.trans typDecoded
  refine (headersWithin_run run _ rest).mpr (FrameRun.within_only.mpr ?_)
  have length : (controlStream iteration).frame.payload.length = payloadLen iteration :=
    payload_length iteration
  omega

/-- After any calls that enable WebTransport the peer reads the settings and
finds WebTransport supported, whatever the map held before and however the
bytes arrive. -/
theorem read_enabled (start : Settings) (calls : List EnableCall) (last : EnableCall)
    (iteration : (enabled start calls last).Iteration)
    (fits : payloadLen iteration ≤ maxSettingsFrameSize) :
    ∃ bytes received, encode iteration = some bytes ∧
      (∀ (stream : ByteStream IoError) (rest : List UInt8), stream.bytes = bytes ++ rest →
        read stream = .done received (stream.advance bytes.length)) ∧
      received.supportsWebtransportServer = true ∧ received.supportsWebtransportClient = true ∧
      1 ≤ received.supportsWebtransport ∧
      (last.isLatest = true → received.lookup webtransportEnableDeprecated = none ∧
        received.lookup webtransportMaxSessionsDeprecated = none) := by
  have boolean : (enabled start calls last).Boolean := boolean_apply _ last
  have kept : ∀ {id}, id.isGrease = false →
      (enabled start calls last).withoutGrease.lookup id = (enabled start calls last).lookup id :=
    fun ordinary => lookup_withoutGrease _ ordinary
  have flags := supports_of_flags ((kept (by decide)).trans (lookup_wtEnabled _ last))
    ((kept (by decide)).trans (lookup_enableDatagram _ last))
    ((kept (by decide)).trans (lookup_enableConnectProtocol _ last))
  refine ⟨_, _, encode_eq iteration, fun stream rest arrived => read_controlStream boolean iteration fits arrived,
    flags.1, flags.2.1, flags.2.2.ge, ?_⟩
  intro latest
  rw [kept (by decide), kept (by decide)]
  refine ⟨?_, lookup_webtransportMaxSessionsDeprecated _ last latest⟩
  exact (lookup_webtransportEnableDeprecated _ last).trans (if_pos latest)

def sampleIteration : (enabled ∅ [] (.latest 1)).Iteration where
  order := [⟨webtransportMaxSessions, VarInt.fromU32 1⟩, ⟨wtEnabled, VarInt.fromU32 1⟩,
    ⟨enableDatagramDeprecated, VarInt.fromU32 1⟩, ⟨enableDatagram, VarInt.fromU32 1⟩,
    ⟨enableConnectProtocol, VarInt.fromU32 1⟩]
  entries := by decide +kernel
  allocated := by decide

theorem read_enabled_latest :
    ∃ bytes received, encode sampleIteration = some bytes ∧
      (∀ (stream : ByteStream IoError) (rest : List UInt8), stream.bytes = bytes ++ rest →
        read stream = .done received (stream.advance bytes.length)) ∧
      received.supportsWebtransportServer = true ∧ received.supportsWebtransportClient = true ∧
      1 ≤ received.supportsWebtransport ∧
      ((EnableCall.latest 1).isLatest = true → received.lookup webtransportEnableDeprecated = none ∧
        received.lookup webtransportMaxSessionsDeprecated = none) :=
  read_enabled ∅ [] (.latest 1) sampleIteration (by decide)

end Webtrans.Proto.Settings
