import Mathlib.Data.List.Basic
import Mathlib.Tactic.SplitIfs

namespace Webtrans.Data

/-! UTF-8 strings as byte sequences: checked decoding, and lossy decoding that
replaces every maximal ill-formed subpart by U+FFFD. -/

def asBytes (text : String) : List UInt8 :=
  text.toByteArray.data.toList

/-- A string from its UTF-8 bytes, when they are well formed. -/
def fromUtf8 (bytes : List UInt8) : Option String :=
  String.fromUTF8? ⟨bytes.toArray⟩

@[simp] theorem fromUtf8_asBytes (text : String) : fromUtf8 (asBytes text) = some text := by
  simp [fromUtf8, asBytes, String.fromUTF8?, String.fromUTF8, text.isValidUTF8]

theorem asBytes_of_fromUtf8 {bytes : List UInt8} {text : String}
    (decoded : fromUtf8 bytes = some text) : asBytes text = bytes := by
  unfold fromUtf8 String.fromUTF8? at decoded
  split at decoded
  · cases decoded
    rfl
  · cases decoded

@[simp] theorem asBytes_length (text : String) : (asBytes text).length = text.utf8ByteSize := rfl

theorem asBytes_ofList (chars : List Char) :
    asBytes (String.ofList chars) = chars.flatMap String.utf8EncodeChar := by
  simp [asBytes, String.toByteArray_ofList, List.utf8Encode]

theorem utf8ByteSize_ofList (chars : List Char) :
    (String.ofList chars).utf8ByteSize = (chars.flatMap String.utf8EncodeChar).length := by
  rw [← asBytes_length, asBytes_ofList]

theorem asBytes_append (left right : String) : asBytes (left ++ right) = asBytes left ++ asBytes right := by
  simp [asBytes, String.toByteArray_append]

def decodeChar? (bytes : List UInt8) : Option Char :=
  ByteArray.utf8DecodeChar? ⟨bytes.toArray⟩ 0

theorem decodeChar?_encoded (char : Char) (rest : List UInt8) :
    decodeChar? (String.utf8EncodeChar char ++ rest) = some char := by
  have decoded := ByteArray.utf8DecodeChar?_utf8EncodeChar_append (b := ⟨rest.toArray⟩) (c := char)
  have joined : (⟨(String.utf8EncodeChar char ++ rest).toArray⟩ : ByteArray) =
      (String.utf8EncodeChar char).toByteArray ++ ⟨rest.toArray⟩ := by
    apply ByteArray.ext
    simp
  rw [decodeChar?, joined, decoded]

def isContinuation (byte : UInt8) : Bool := byte &&& 0b11000000 == 0b10000000

/-- The second bytes a three- or four-byte character may have after its first. -/
def secondAllowed (first second : UInt8) : Bool :=
  if first = 0xE0 then 0xA0 ≤ second && second ≤ 0xBF
  else if first = 0xED then 0x80 ≤ second && second ≤ 0x9F
  else if first = 0xF0 then 0x90 ≤ second && second ≤ 0xBF
  else if first = 0xF4 then 0x80 ≤ second && second ≤ 0x8F
  else isContinuation second

/-- Length of the maximal ill-formed subpart at the front of bytes that do not
start with a complete character. -/
def illFormedLength : List UInt8 → Nat
  | first :: second :: third :: _ =>
      if 0xE0 ≤ first && first ≤ 0xF4 && secondAllowed first second then
        if 0xF0 ≤ first && isContinuation third then 3 else 2
      else 1
  | [first, second] =>
      if 0xE0 ≤ first && first ≤ 0xF4 && secondAllowed first second then 2 else 1
  | _ => 1

theorem illFormedLength_pos (bytes : List UInt8) : 0 < illFormedLength bytes := by
  unfold illFormedLength
  split
  · split
    · split <;> decide
    · decide
  · split <;> decide
  · decide

def lossyChars (bytes : List UInt8) : List Char :=
  match bytes with
  | [] => []
  | first :: rest =>
      match decodeChar? (first :: rest) with
      | some char => char :: lossyChars ((first :: rest).drop char.utf8Size)
      | none => '\uFFFD' :: lossyChars ((first :: rest).drop (illFormedLength (first :: rest)))
termination_by bytes.length
decreasing_by
  · have positive := char.utf8Size_pos
    simp only [List.length_drop, List.length_cons]
    omega
  · have positive := illFormedLength_pos (first :: rest)
    simp only [List.length_drop, List.length_cons]
    omega

/-- `String::from_utf8_lossy`. -/
def fromUtf8Lossy (bytes : List UInt8) : String :=
  String.ofList (lossyChars bytes)

theorem lossyChars_append (chars : List Char) (rest : List UInt8) :
    lossyChars (chars.flatMap String.utf8EncodeChar ++ rest) = chars ++ lossyChars rest := by
  induction chars with
  | nil => rw [List.flatMap_nil, List.nil_append, List.nil_append]
  | cons char chars ih =>
      have decoded := decodeChar?_encoded char (chars.flatMap String.utf8EncodeChar ++ rest)
      have behind : (String.utf8EncodeChar char ++ (chars.flatMap String.utf8EncodeChar ++ rest)).drop
          char.utf8Size = chars.flatMap String.utf8EncodeChar ++ rest := by
        rw [← String.length_utf8EncodeChar char, List.drop_left]
      rw [List.flatMap_cons, List.append_assoc]
      cases encoded : String.utf8EncodeChar char ++ (chars.flatMap String.utf8EncodeChar ++ rest) with
      | nil => simp [String.utf8EncodeChar_ne_nil] at encoded
      | cons first tail =>
          rw [encoded] at decoded behind
          rw [lossyChars, decoded]
          dsimp only
          rw [behind, ih, List.cons_append]

theorem lossyChars_encoded (chars : List Char) :
    lossyChars (chars.flatMap String.utf8EncodeChar) = chars := by
  have whole := lossyChars_append chars []
  rwa [List.append_nil, lossyChars, List.append_nil] at whole

-- The examples of the standard library's documentation and of Unicode's table 3-8.
example : lossyChars [0x48, 0x65, 0xF0, 0x90, 0x80, 0x57] = ['H', 'e', '\uFFFD', 'W'] := by
  decide +kernel
example : lossyChars [0xF1, 0x80, 0x80, 0xE1, 0x80, 0xC2, 0x62, 0x80, 0x63, 0x80, 0xBF, 0x64] =
    ['\uFFFD', '\uFFFD', '\uFFFD', 'b', '\uFFFD', 'c', '\uFFFD', '\uFFFD', 'd'] := by
  decide +kernel

theorem isContinuation_low : ∀ low < 64, isContinuation (UInt8.ofNat (low + 0x80)) = true := by
  decide

theorem secondAllowed_three {value : Nat} (valid : value.isValidChar) (large : 0x7ff < value)
    (small : value ≤ 0xffff) :
    secondAllowed (UInt8.ofNat (value / 4096 % 0x10 + 0xe0)) (UInt8.ofNat (value / 64 % 0x40 + 0x80)) = true := by
  have continuation := isContinuation_low (value / 64 % 0x40) (Nat.mod_lt _ (by decide))
  rw [Nat.isValidChar] at valid
  simp only [secondAllowed, ← UInt8.toNat_inj, UInt8.le_iff_toNat_le, UInt8.toNat_ofNat', Nat.reducePow,
    UInt8.reduceToNat, continuation]
  split_ifs
  case neg => rfl
  all_goals
    simp only [Bool.and_eq_true, decide_eq_true_eq]
    omega

theorem secondAllowed_four {value : Nat} (valid : value.isValidChar) (large : 0xffff < value) :
    secondAllowed (UInt8.ofNat (value / 262144 % 0x08 + 0xf0)) (UInt8.ofNat (value / 4096 % 0x40 + 0x80)) = true := by
  have continuation := isContinuation_low (value / 4096 % 0x40) (Nat.mod_lt _ (by decide))
  rw [Nat.isValidChar] at valid
  simp only [secondAllowed, ← UInt8.toNat_inj, UInt8.le_iff_toNat_le, UInt8.toNat_ofNat', Nat.reducePow,
    UInt8.reduceToNat, continuation]
  split_ifs
  case neg => rfl
  all_goals
    simp only [Bool.and_eq_true, decide_eq_true_eq]
    omega

theorem illFormedLength_two {first second : UInt8} (lower : 0xE0 ≤ first) (upper : first ≤ 0xF4)
    (allowed : secondAllowed first second = true) : illFormedLength [first, second] = 2 := by
  rw [illFormedLength, if_pos (by simp [lower, upper, allowed])]

theorem illFormedLength_three {first second third : UInt8} (lower : 0xF0 ≤ first) (upper : first ≤ 0xF4)
    (allowed : secondAllowed first second = true) (continuation : isContinuation third = true) :
    illFormedLength [first, second, third] = 3 := by
  have beyond : 0xE0 ≤ first := UInt8.le_trans (by decide) lower
  rw [illFormedLength, if_pos (by simp [beyond, upper, allowed]), if_pos (by simp [lower, continuation])]

/-- A proper front part of a character is one maximal subpart. -/
theorem illFormedLength_cut (char : Char) {count : Nat} (positive : 0 < count) (cut : count < char.utf8Size) :
    illFormedLength ((String.utf8EncodeChar char).take count) = count := by
  have valid : char.val.toNat.isValidChar := char.valid
  have upper : char.val.toNat < 0x110000 := by
    rw [Nat.isValidChar] at valid
    omega
  rw [← String.length_utf8EncodeChar] at cut
  unfold String.utf8EncodeChar at cut ⊢
  generalize char.val.toNat = value at *
  dsimp only at cut ⊢
  split_ifs at cut ⊢ with one two three
  all_goals simp only [List.length_cons, List.length_nil] at cut
  · omega
  · obtain rfl : count = 1 := by omega
    rfl
  · obtain rfl | rfl : count = 1 ∨ count = 2 := by omega
    · rfl
    · refine illFormedLength_two ?_ ?_ (secondAllowed_three valid (by omega) three)
      all_goals
        simp only [UInt8.le_iff_toNat_le, UInt8.toNat_ofNat', UInt8.reduceToNat]
        omega
  · have lower : 0xF0 ≤ UInt8.ofNat (value / 262144 % 0x08 + 0xf0) := by
      simp only [UInt8.le_iff_toNat_le, UInt8.toNat_ofNat', UInt8.reduceToNat]
      omega
    have limit : UInt8.ofNat (value / 262144 % 0x08 + 0xf0) ≤ 0xF4 := by
      simp only [UInt8.le_iff_toNat_le, UInt8.toNat_ofNat', UInt8.reduceToNat]
      omega
    have second := secondAllowed_four valid (show 0xffff < value by omega)
    obtain rfl | rfl | rfl : count = 1 ∨ count = 2 ∨ count = 3 := by omega
    · rfl
    · exact illFormedLength_two (UInt8.le_trans (by decide) lower) limit second
    · exact illFormedLength_three lower limit second (isContinuation_low _ (Nat.mod_lt _ (by decide)))

theorem decodeChar?_cut (char : Char) {count : Nat} (cut : count < char.utf8Size) :
    decodeChar? ((String.utf8EncodeChar char).take count) = none := by
  cases decoded : decodeChar? ((String.utf8EncodeChar char).take count) with
  | none => rfl
  | some found =>
      have size := ByteArray.le_size_of_utf8DecodeChar?_eq_some decoded
      have whole := ByteArray.utf8DecodeChar?_append_eq_some decoded
        ⟨((String.utf8EncodeChar char).drop count).toArray⟩
      have joined : (⟨((String.utf8EncodeChar char).take count).toArray⟩ : ByteArray) ++
          ⟨((String.utf8EncodeChar char).drop count).toArray⟩ = ⟨(String.utf8EncodeChar char).toArray⟩ := by
        apply ByteArray.ext
        simp
      have read := decodeChar?_encoded char []
      rw [List.append_nil, decodeChar?, ← joined, whole] at read
      cases read
      have taken : ((String.utf8EncodeChar char).take count).length = count := by
        rw [List.length_take, String.length_utf8EncodeChar]
        omega
      simp only [ByteArray.size, List.size_toArray, taken] at size
      omega

theorem lossyChars_cut (char : Char) {count : Nat} (positive : 0 < count) (cut : count < char.utf8Size) :
    lossyChars ((String.utf8EncodeChar char).take count) = ['\uFFFD'] := by
  have length := illFormedLength_cut char positive cut
  have failed := decodeChar?_cut char cut
  have taken : ((String.utf8EncodeChar char).take count).length = count := by
    rw [List.length_take, String.length_utf8EncodeChar]
    omega
  cases front : (String.utf8EncodeChar char).take count with
  | nil =>
      rw [front] at taken
      simp at taken
      omega
  | cons first rest =>
      rw [front] at length failed taken
      rw [lossyChars, failed]
      dsimp only
      rw [length, List.drop_of_length_le (by omega), lossyChars]

/-- What a cut at a byte position leaves of a text: everything, or complete
characters and a proper front part of the next one. -/
theorem take_encoded (chars : List Char) (limit : Nat) :
    (chars.flatMap String.utf8EncodeChar).length ≤ limit ∨
      ∃ front char back count, chars = front ++ char :: back ∧ count < char.utf8Size ∧
        (front.flatMap String.utf8EncodeChar).length + count = limit ∧
        (chars.flatMap String.utf8EncodeChar).take limit =
          front.flatMap String.utf8EncodeChar ++ (String.utf8EncodeChar char).take count := by
  induction chars generalizing limit with
  | nil => simp
  | cons char chars ih =>
      by_cases cut : limit < char.utf8Size
      · refine .inr ⟨[], char, chars, limit, rfl, cut, by simp, ?_⟩
        rw [List.flatMap_cons, List.take_append_of_le_length (by rw [String.length_utf8EncodeChar]; omega)]
        rfl
      · rcases ih (limit - char.utf8Size) with whole | ⟨front, next, back, count, rfl, inside, position, taken⟩
        · left
          rw [List.flatMap_cons, List.length_append, String.length_utf8EncodeChar]
          omega
        · refine .inr ⟨char :: front, next, back, count, rfl, inside, ?_, ?_⟩
          · rw [List.flatMap_cons, List.length_append, String.length_utf8EncodeChar]
            omega
          · rw [List.flatMap_cons, List.take_append, String.length_utf8EncodeChar, taken,
              List.take_of_length_le (by rw [String.length_utf8EncodeChar]; omega), List.flatMap_cons,
              List.append_assoc]

/-- The longest front part of a text, in whole characters, within a limit of
bytes. -/
def LongestPrefix (limit : Nat) (text front : String) : Prop :=
  (∃ back, text = front ++ back) ∧ front.utf8ByteSize ≤ limit ∧
    ∀ other back, text = other ++ back → other.utf8ByteSize ≤ limit →
      other.utf8ByteSize ≤ front.utf8ByteSize

theorem LongestPrefix.whole {limit : Nat} {text : String} (fits : text.utf8ByteSize ≤ limit) :
    LongestPrefix limit text text := by
  refine ⟨⟨"", by simp⟩, fits, ?_⟩
  intro other back split _
  rw [split, String.utf8ByteSize_append]
  omega

theorem LongestPrefix.size_eq {limit : Nat} {text left right : String}
    (leftLongest : LongestPrefix limit text left) (rightLongest : LongestPrefix limit text right) :
    left.utf8ByteSize = right.utf8ByteSize := by
  obtain ⟨⟨leftRest, leftSplit⟩, leftFits, leftMost⟩ := leftLongest
  obtain ⟨⟨rightRest, rightSplit⟩, rightFits, rightMost⟩ := rightLongest
  exact Nat.le_antisymm (rightMost left leftRest leftSplit leftFits)
    (leftMost right rightRest rightSplit rightFits)

theorem LongestPrefix.cut {limit : Nat} {front back : List Char} {char : Char}
    (fits : (String.ofList front).utf8ByteSize ≤ limit)
    (beyond : limit < (String.ofList front).utf8ByteSize + char.utf8Size) :
    LongestPrefix limit (String.ofList (front ++ char :: back)) (String.ofList front) := by
  refine ⟨⟨String.ofList (char :: back), String.ofList_append⟩, fits, ?_⟩
  intro other rest split within
  have chars : front ++ char :: back = other.toList ++ rest.toList := by
    rw [← String.toList_append, ← split, String.toList_ofList]
  have otherSize := utf8ByteSize_ofList other.toList
  rw [String.ofList_toList] at otherSize
  rw [utf8ByteSize_ofList] at *
  rcases List.append_eq_append_iff.mp chars with ⟨more, longer, tail⟩ | ⟨more, shorter, tail⟩
  · cases more with
    | nil =>
        rw [List.append_nil] at longer
        exact Nat.le_of_eq (by rw [otherSize, longer])
    | cons next more =>
        rw [List.cons_append, List.cons.injEq] at tail
        rw [longer, ← tail.1, List.flatMap_append, List.flatMap_cons] at otherSize
        simp only [List.length_append, String.length_utf8EncodeChar] at otherSize
        omega
  · rw [otherSize, shorter, List.flatMap_append, List.length_append]
    omega

end Webtrans.Data
