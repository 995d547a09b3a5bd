import Webtrans.Data.Finmap
import Webtrans.Proto.Capsule
import Webtrans.Proto.Frame

namespace Webtrans.Proto

open Webtrans.Data

/-! SETTINGS maps and their decoder (`webtrans-proto/src/settings.rs`). -/

def maxSettingsFrameSize : Nat := 16 * 1024

structure Setting where
  id : VarInt
deriving DecidableEq, Repr

namespace Setting

def decode : Parser VarIntUnexpectedEnd Setting := fun buf =>
  match VarInt.decode buf with
  | .error error => .error error
  | .ok (id, rest) => .ok (⟨id⟩, rest)

def encode (setting : Setting) : List UInt8 := setting.id.encode

def size (setting : Setting) : Nat := setting.id.size

def isGrease (setting : Setting) : Bool := isGreaseValue setting.id.intoInner

def fromU32 (value : UInt32) : Setting := ⟨VarInt.fromU32 value⟩

def enableConnectProtocol : Setting := fromU32 0x8
def enableDatagram : Setting := fromU32 0x33
def enableDatagramDeprecated : Setting := fromU32 0xFFD277
def webtransportEnableDeprecated : Setting := fromU32 0x2b603742
def webtransportMaxSessionsDeprecated : Setting := fromU32 0x2b603743
def webtransportMaxSessions : Setting := fromU32 0xc671706a
def wtEnabled : Setting := fromU32 0x2c7cf000

/-- The identifiers whose value has to be 0 or 1. -/
def booleans : List Setting :=
  [enableConnectProtocol, enableDatagram, enableDatagramDeprecated, webtransportEnableDeprecated, wtEnabled]

theorem booleans_notGrease {setting : Setting} (boolean : setting ∈ booleans) : setting.isGrease = false := by
  revert setting
  decide

end Setting

inductive SettingsError where
  | unexpectedEnd
  | unexpectedStreamType (typ : UniStream)
  | unexpectedFrame (typ : Frame)
  | invalidSize
  | duplicateSetting (id : Setting)
  | invalidValue (id : Setting) (value : VarInt)
  | messageTooLong
  | io (error : IoError)
deriving DecidableEq, Repr

abbrev SettingEntry := (_ : Setting) × VarInt

abbrev Settings := Finmap fun _ : Setting => VarInt

namespace Settings

/-- An identifier and its value.  A retry would not help when they are cut
short. -/
def decodePair : Parser SettingsError SettingEntry := fun data =>
  match Setting.decode data with
  | .error _ => .error .invalidSize
  | .ok (id, data) =>
      match VarInt.decode data with
      | .error _ => .error .invalidSize
      | .ok (value, data) => .ok (⟨id, value⟩, data)

/-- Only retain non-GREASE entries. -/
def accept (settings : Settings) (entry : SettingEntry) : Except SettingsError Settings :=
  let ⟨id, value⟩ := entry
  if id.isGrease then .ok settings
  else if id ∈ settings then .error (.duplicateSetting id)
  else if id ∈ Setting.booleans ∧ value.intoInner > 1 then .error (.invalidValue id value)
  else .ok (settings.insert id value)

theorem decodePair_ok {input rest : List UInt8} {entry : SettingEntry}
    (decoded : decodePair input = .ok (entry, rest)) :
    ∃ behind, VarInt.decode input = .ok (entry.1.id, behind) ∧ VarInt.decode behind = .ok (entry.2, rest) := by
  simp only [decodePair, Setting.decode] at decoded
  cases idDecoded : VarInt.decode input with
  | error error => simp [idDecoded] at decoded
  | ok result =>
      obtain ⟨id, behind⟩ := result
      cases valueDecoded : VarInt.decode behind with
      | error error => simp [idDecoded, valueDecoded] at decoded
      | ok result =>
          obtain ⟨value, rest⟩ := result
          simp only [idDecoded, valueDecoded] at decoded
          cases decoded
          exact ⟨behind, rfl, valueDecoded⟩

theorem decodePair_shrinks : decodePair.Shrinks := by
  intro input entry rest decoded
  obtain ⟨behind, idDecoded, valueDecoded⟩ := decodePair_ok decoded
  exact (VarInt.decode_length_lt valueDecoded).trans (VarInt.decode_length_lt idDecoded)

/-- Decode a control stream prefix and SETTINGS frame from an in-memory buffer. -/
def decode : Parser SettingsError Settings := fun buf =>
  match UniStream.decode buf with
  | .error _ => .error .unexpectedEnd
  | .ok (typ, buf) =>
      if typ ≠ UniStream.control then .error (.unexpectedStreamType typ)
      else
        match Frame.read buf with
        | .error _ => .error .unexpectedEnd
        | .ok ((typ, data), buf) =>
            if typ ≠ Frame.settings then .error (.unexpectedFrame typ)
            else
              match decodePair.foldItems decodePair_shrinks accept ∅ data with
              | .error error => .error error
              | .ok settings => .ok (settings, buf)

end Settings

/-- An identifier and a value, each in any of its encodings. -/
structure SettingPair where
  setting : Setting
  value : VarInt
  settingBytes : List UInt8
  valueBytes : List UInt8
  setting_reads : VarInt.decode.Reads settingBytes setting.id
  value_reads : VarInt.decode.Reads valueBytes value

namespace SettingPair

def bytes (pair : SettingPair) : List UInt8 := pair.settingBytes ++ pair.valueBytes

def entry (pair : SettingPair) : SettingEntry := ⟨pair.setting, pair.value⟩

/-- The pair in its shortest encoding. -/
def shortest (entry : SettingEntry) : SettingPair where
  setting := entry.1
  value := entry.2
  settingBytes := entry.1.encode
  valueBytes := entry.2.encode
  setting_reads := VarInt.decode_reads_encode entry.1.id
  value_reads := VarInt.decode_reads_encode entry.2

theorem reads (pair : SettingPair) : Settings.decodePair.Reads pair.bytes pair.entry := by
  intro rest
  simp only [Settings.decodePair, Setting.decode, bytes, List.append_assoc,
    pair.setting_reads (pair.valueBytes ++ rest), pair.value_reads rest]
  rfl

theorem spelled {input rest : List UInt8} {entry : SettingEntry}
    (decoded : Settings.decodePair input = .ok (entry, rest)) :
    ∃ pair : SettingPair, input = pair.bytes ++ rest ∧ pair.entry = entry := by
  obtain ⟨behind, idDecoded, valueDecoded⟩ := Settings.decodePair_ok decoded
  obtain ⟨settingBytes, rfl, settingReads⟩ := VarInt.decode_local idDecoded
  obtain ⟨valueBytes, rfl, valueReads⟩ := VarInt.decode_local valueDecoded
  exact ⟨⟨entry.1, entry.2, settingBytes, valueBytes, settingReads, valueReads⟩,
    (List.append_assoc ..).symm, rfl⟩

end SettingPair

end Webtrans.Proto
