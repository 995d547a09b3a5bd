import Webtrans.Proto.Huffman.Position

namespace Webtrans.Proto.Huffman

open Webtrans.Data TableDecoder

/-! What the string decoder accepts, against RFC 7541 section 5.2. -/

variable {input : List UInt8} {w : BitWindow}

theorem decodeNext_lookup {decoder : HuffmanDecoder} (checked : decoder.all widths = true) {bits : List Bool}
    (before : Before input w bits) (small : input.length < 2 ^ 29) (enough : decoder.lookup ≤ bits.length) :
    ∃ after, Before input after (bits.drop decoder.lookup) ∧
      decodeNext decoder w input =
        match decoder.table[natOfBits (bits.take decoder.lookup)]? with
        | none => .error (.unhandled after (natOfBits (bits.take decoder.lookup)))
        | some (.sym x) => .ok (some (x, after))
        | some (.subtable inner) => decodeNext inner after input := by
  obtain ⟨positive, byteful⟩ := widths_bounds checked
  obtain ⟨fetched, beforeNext⟩ := before.fetch small positive byteful enough
  have index := index_eq (bits.take decoder.lookup) (by rw [List.length_take]; omega)
  refine ⟨_, beforeNext, ?_⟩
  have decoded := decodeNext_value fetched
  rw [index] at decoded
  exact decoded

theorem take_append_width (front rest : List Bool) {width : Nat} (same : front.length = width) :
    (front ++ rest).take width = front ∧ (front ++ rest).drop width = rest := by
  subst same
  exact ⟨List.take_left, List.drop_left⟩

theorem decodeNext_code {decoder : HuffmanDecoder} {code rest : List Bool} {x : UInt8}
    (path : Code decoder code x) (checked : decoder.all widths = true)
    (before : Before input w (code ++ rest)) (small : input.length < 2 ^ 29) :
    ∃ after, decodeNext decoder w input = .ok (some (x, after)) ∧ Before input after rest := by
  induction path generalizing w with
  | @sym decoder index value width found =>
      obtain ⟨after, beforeNext, decoded⟩ := decodeNext_lookup checked before small
        (by rw [List.length_append]; omega)
      obtain ⟨taken, dropped⟩ := take_append_width index rest width
      rw [dropped] at beforeNext
      rw [taken, found] at decoded
      exact ⟨after, decoded, beforeNext⟩
  | @subtable decoder inner index bits value width found _ ih =>
      rw [List.append_assoc] at before
      obtain ⟨middle, beforeNext, decoded⟩ := decodeNext_lookup checked before small
        (by rw [List.length_append]; omega)
      obtain ⟨taken, dropped⟩ := take_append_width index (bits ++ rest) width
      rw [dropped] at beforeNext
      rw [taken, found] at decoded
      obtain ⟨after, symbol, beforeRest⟩ := ih (all_subtable checked found) beforeNext
      exact ⟨after, decoded.trans symbol, beforeRest⟩

theorem decodeNext_reaches {decoder inner : HuffmanDecoder} {walked unread : List Bool}
    (path : Reaches decoder walked inner) (checked : decoder.all widths = true)
    (before : Before input w (walked ++ unread)) (small : input.length < 2 ^ 29) :
    ∃ after, decodeNext decoder w input = decodeNext inner after input ∧ Before input after unread := by
  induction path generalizing w with
  | here => exact ⟨w, rfl, before⟩
  | @subtable decoder inner last index bits width found _ ih =>
      rw [List.append_assoc] at before
      obtain ⟨middle, beforeNext, decoded⟩ := decodeNext_lookup checked before small
        (by rw [List.length_append]; omega)
      obtain ⟨taken, dropped⟩ := take_append_width index (bits ++ unread) width
      rw [dropped] at beforeNext
      rw [taken, found] at decoded
      obtain ⟨after, same, beforeLast⟩ := ih (all_subtable checked found) beforeNext
      exact ⟨after, decoded.trans same, beforeLast⟩

theorem decodeNext_short {decoder : HuffmanDecoder} (checked : decoder.all widths = true) {unread : List Bool}
    (before : Before input w unread) (small : input.length < 2 ^ 29) (short : unread.length < decoder.lookup) :
    if (∀ bit ∈ unread, bit = true) ∧ 8 * input.length - unread.length + decoder.lookup < 2 ^ 32 then
      decodeNext decoder w input = .ok none
    else ∃ error, decodeNext decoder w input = .error error := by
  have fetched := before.fetch_short small (widths_bounds checked).2 short
  rw [decodeNext]
  split at fetched
  case isTrue ends =>
    rw [if_pos ends, fetched]
  case isFalse fails =>
    obtain ⟨error, fetched⟩ := fetched
    rw [if_neg fails, fetched]
    exact ⟨error, rfl⟩

theorem hpackDecodeFrom_nil :
    hpackDecodeFrom input w = .ok [] ↔ decodeNext hpackString w input = .ok none := by
  rw [hpackDecodeFrom, collect_eq, decodeIterNext]
  split
  next failed => simp [failed]
  next ended => simp [ended]
  next x after symbol =>
    rw [symbol]
    cases collect (decodeIterNext input) (distance input) distance_lt after <;> simp [Except.map]

theorem hpackDecodeFrom_cons {x : UInt8} {text : List UInt8} :
    hpackDecodeFrom input w = .ok (x :: text) ↔
      ∃ after, decodeNext hpackString w input = .ok (some (x, after)) ∧
        hpackDecodeFrom input after = .ok text := by
  rw [hpackDecodeFrom, collect_eq, decodeIterNext]
  split
  next failed => simp [failed]
  next ended => simp [ended]
  next first after symbol =>
    rw [symbol]
    simp only [hpackDecodeFrom, Except.ok.injEq, Option.some.injEq, Prod.mk.injEq]
    constructor
    · intro decoded
      cases later : collect (decodeIterNext input) (distance input) distance_lt after with
      | error error =>
          rw [later] at decoded
          cases decoded
      | ok rest =>
          rw [later] at decoded
          cases decoded
          exact ⟨after, ⟨rfl, rfl⟩, later⟩
    · intro decoded
      obtain ⟨_, ⟨same, sameAfter⟩, later⟩ := decoded
      subst same sameAfter
      rw [later]
      rfl

/-- The bits are whole codes of the text and then end inside a code, whose
`walked` bits have led to a table and whose `unread` bits are ones, too few for
its lookup. -/
structure EndsInside (bits : List Bool) (text : List UInt8) (codes walked unread : List Bool)
    (inner : HuffmanDecoder) : Prop where
  split : bits = codes ++ (walked ++ unread)
  spells : Spells hpackString text codes
  reaches : Reaches hpackString walked inner
  short : unread.length < inner.lookup
  ones : ∀ bit ∈ unread, bit = true

theorem decodeNext_cases {bits : List Bool} (before : Before input w bits) (small : input.length < 2 ^ 29) :
    (∃ code rest x after, bits = code ++ rest ∧ Code hpackString code x ∧ Before input after rest ∧
      decodeNext hpackString w input = .ok (some (x, after))) ∨
    (∃ walked unread inner, EndsInside bits [] [] walked unread inner ∧
      8 * input.length - unread.length + inner.lookup < 2 ^ 32 ∧
      decodeNext hpackString w input = .ok none) ∨
    ∃ error, decodeNext hpackString w input = .error error := by
  obtain ⟨code, rest, x, rfl, path⟩ | ⟨walked, unread, inner, rfl, path, stops⟩ := progress hpackString bits
  · obtain ⟨after, symbol, beforeRest⟩ := decodeNext_code path hpackString_widths before small
    exact .inl ⟨code, rest, x, after, rfl, path, beforeRest, symbol⟩
  · obtain ⟨after, same, beforeInner⟩ := decodeNext_reaches path hpackString_widths before small
    have checked := path.all hpackString_widths
    obtain short | ⟨enough, missing⟩ := stops
    · have ended := decodeNext_short checked beforeInner small short
      split at ended
      case isTrue ends =>
        exact .inr (.inl ⟨walked, unread, inner, ⟨rfl, .nil, path, short, ends.1⟩, ends.2, same.trans ended⟩)
      case isFalse =>
        obtain ⟨error, failed⟩ := ended
        exact .inr (.inr ⟨error, same.trans failed⟩)
    · obtain ⟨last, _, unhandled⟩ := decodeNext_lookup checked beforeInner small enough
      rw [missing] at unhandled
      exact .inr (.inr ⟨_, same.trans unhandled⟩)

theorem endsInside_of_hpackDecodeFrom {bits : List Bool} {text : List UInt8} (before : Before input w bits)
    (small : input.length < 2 ^ 29) (decoded : hpackDecodeFrom input w = .ok text) :
    ∃ codes walked unread inner, EndsInside bits text codes walked unread inner ∧
      8 * input.length - unread.length + inner.lookup < 2 ^ 32 := by
  induction text generalizing w bits with
  | nil =>
      have ended := hpackDecodeFrom_nil.mp decoded
      obtain ⟨_, _, _, _, _, _, _, symbol⟩ | ⟨walked, unread, inner, ends, fits, _⟩ | ⟨_, failed⟩ :=
        decodeNext_cases before small
      · cases ended.symm.trans symbol
      · exact ⟨[], walked, unread, inner, ends, fits⟩
      · cases ended.symm.trans failed
  | cons x text ih =>
      obtain ⟨after, decodedFirst, later⟩ := hpackDecodeFrom_cons.mp decoded
      obtain ⟨code, rest, _, _, split, path, beforeRest, symbol⟩ | ⟨_, _, _, _, _, ended⟩ | ⟨_, failed⟩ :=
        decodeNext_cases before small
      · cases decodedFirst.symm.trans symbol
        obtain ⟨codes, walked, unread, inner, ends, fits⟩ := ih beforeRest later
        refine ⟨code ++ codes, walked, unread, inner, ?_, fits⟩
        exact { ends with
          split := by rw [split, ends.split, List.append_assoc]
          spells := .cons path ends.spells }
      · cases decodedFirst.symm.trans ended
      · cases decodedFirst.symm.trans failed

theorem hpackDecodeFrom_of_endsInside {bits : List Bool} {text : List UInt8}
    {codes walked unread : List Bool} {inner : HuffmanDecoder} (before : Before input w bits)
    (small : input.length < 2 ^ 29) (ends : EndsInside bits text codes walked unread inner)
    (fits : 8 * input.length - unread.length + inner.lookup < 2 ^ 32) :
    hpackDecodeFrom input w = .ok text := by
  obtain ⟨split, spells, reaches, short, ones⟩ := ends
  induction spells generalizing w bits with
  | nil =>
      subst split
      obtain ⟨after, same, beforeInner⟩ := decodeNext_reaches reaches hpackString_widths before small
      have ended := decodeNext_short (reaches.all hpackString_widths) beforeInner small short
      rw [if_pos ⟨ones, fits⟩] at ended
      exact hpackDecodeFrom_nil.mpr (same.trans ended)
  | cons first _ ih =>
      rw [List.append_assoc] at split
      subst split
      obtain ⟨after, symbol, beforeRest⟩ := decodeNext_code first hpackString_widths before small
      exact hpackDecodeFrom_cons.mpr ⟨after, symbol, ih beforeRest rfl⟩

/-- The window stands at or before the wrapped bit length. -/
structure Within (input : List UInt8) (w : BitWindow) : Prop where
  bit : w.bit.toNat < 8
  count : w.count.toNat ≤ 8
  inside : w.byte.toNat * 8 + w.bit.toNat + w.count.toNat ≤ (bitLimit input).toNat

theorem bitLimit_toNat (input : List UInt8) : (bitLimit input).toNat = 8 * input.length % 2 ^ 32 := by
  simp only [bitLimit, UInt32.toNat_mul, UInt32.toNat_ofNat', UInt32.reduceToNat]
  omega

theorem Within.forwards (within : Within input w) {lookup : Nat} (byteful : lookup ≤ 8) :
    (w.forwards (UInt32.ofNat lookup)).byte.toNat * 8 + (w.forwards (UInt32.ofNat lookup)).bit.toNat =
        w.byte.toNat * 8 + w.bit.toNat + w.count.toNat ∧
      (w.forwards (UInt32.ofNat lookup)).bit.toNat < 8 ∧
      (w.forwards (UInt32.ofNat lookup)).count.toNat = lookup := by
  obtain ⟨bit, count, inside⟩ := within
  have limit := bitLimit_toNat input
  simp only [BitWindow.forwards, UInt32.toNat_add, UInt32.toNat_div, UInt32.toNat_mod, UInt32.toNat_ofNat',
    UInt32.reduceToNat]
  omega

/-- A successful read stays within, but for a full byte at the very end. -/
theorem Within.read (within : Within input w) {lookup : Nat} (byteful : lookup ≤ 7) {value : UInt8}
    (read : readBits input (w.forwards (UInt32.ofNat lookup)).byte (w.forwards (UInt32.ofNat lookup)).bit
      (w.forwards (UInt32.ofNat lookup)).count = .ok value) :
    Within input (w.forwards (UInt32.ofNat lookup)) := by
  obtain ⟨position, inByte, count⟩ := within.forwards (show lookup ≤ 8 by omega)
  have inside := next_le_of_readBits read
  have before := within.inside
  have limit := bitLimit_toNat input
  refine ⟨inByte, by omega, ?_⟩
  rw [BitWindow.next, UInt32.le_iff_toNat_le] at inside
  simp only [UInt32.toNat_add, UInt32.toNat_mul, UInt32.reduceToNat] at inside
  omega

/-- The end check of such a payload never finds its last byte. -/
theorem Within.checkEof (within : Within input w) (long : 2 ^ 29 ≤ input.length) {lookup : Nat}
    (byteful : lookup ≤ 8) : Huffman.checkEof (w.forwards (UInt32.ofNat lookup)) input ≠ .ok none := by
  obtain ⟨position, inByte, _⟩ := within.forwards byteful
  have before := within.inside
  have limit := bitLimit_toNat input
  have earlier : compare ((w.forwards (UInt32.ofNat lookup)).byte + 1).toNat input.length = .lt := by
    rw [Nat.compare_eq_lt]
    simp only [UInt32.toNat_add, UInt32.reduceToNat]
    omega
  rw [Huffman.checkEof, earlier]
  intro ended
  cases ended

theorem checkEof_of_fetchValue (fetched : fetchValue w input = .ok none) : checkEof w input = .ok none := by
  rw [fetchValue] at fetched
  split at fetched
  · cases fetched
  · exact fetched
  · cases fetched

theorem decodeNext_large {decoder : HuffmanDecoder} (checked : decoder.all widths = true)
    (long : 2 ^ 29 ≤ input.length) (within : Within input w) :
    match decodeNext decoder w input with
    | .error _ => True
    | .ok none => False
    | .ok (some (_, after)) => Within input after := by
  fun_induction decodeNext decoder w input with
  | case1 => trivial
  | case2 decoder w next ended =>
      exact within.checkEof long (widths_bounds checked).2 (checkEof_of_fetchValue ended)
  | case3 => trivial
  | case4 decoder w next value fetched x found =>
      obtain ⟨byte, read, _⟩ := readBits_of_fetchValue fetched
      exact within.read (lookup_le_of_found checked found) read
  | case5 decoder w next value fetched inner found ih =>
      obtain ⟨byte, read, _⟩ := readBits_of_fetchValue fetched
      exact ih (all_subtable checked found) (within.read (lookup_le_of_found checked found) read)

theorem hpackDecodeFrom_large (long : 2 ^ 29 ≤ input.length) (within : Within input w) (text : List UInt8) :
    hpackDecodeFrom input w ≠ .ok text := by
  intro decoded
  induction text generalizing w with
  | nil =>
      have next := decodeNext_large hpackString_widths long within
      rw [hpackDecodeFrom_nil.mp decoded] at next
      exact next
  | cons x text ih =>
      obtain ⟨after, symbol, later⟩ := hpackDecodeFrom_cons.mp decoded
      have next := decodeNext_large hpackString_widths long within
      rw [symbol] at next
      exact ih next later

theorem hpackDecode_large (long : 2 ^ 29 ≤ input.length) (text : List UInt8) :
    hpackDecode input ≠ .ok text :=
  hpackDecodeFrom_large long ⟨by decide, by decide, Nat.zero_le _⟩ text

/-- The payload is the codes of the text and less than a byte of ones. -/
def RfcString (payload text : List UInt8) : Prop :=
  ∃ codes padding, bitsOf payload = codes ++ padding ∧ Spells hpackString text codes ∧
    padding.length < 8 ∧ ∀ bit ∈ padding, bit = true

/-- The payload ends inside a code, and its unread bits alone look like padding:
a bit read before them is zero, or there are eight bits or more. -/
def LaxTail (payload : List UInt8) : Prop :=
  payload.length < 2 ^ 29 ∧ ∃ text codes walked unread inner,
    EndsInside (bitsOf payload) text codes walked unread inner ∧
      8 * payload.length - unread.length + inner.lookup < 2 ^ 32 ∧
      (false ∈ walked ∨ 8 ≤ (walked ++ unread).length)

/-- The decoder accepts RFC strings only, but for payloads with such a tail.
The end check looks at the unread bits alone. -/
theorem hpackDecode_rfcString_iff (payload : List UInt8) :
    (∀ text, hpackDecode payload = .ok text → RfcString payload text) ↔ ¬ LaxTail payload := by
  constructor
  · intro strict ⟨small, text, codes, walked, unread, inner, ends, fits, lax⟩
    have decoded := hpackDecodeFrom_of_endsInside (before_start payload) small ends fits
    obtain ⟨rfcCodes, padding, split, spells, short, ones⟩ := strict text decoded
    have same := spells.unique ends.spells (split.symm.trans ends.split)
    subst same
    have tail := List.append_cancel_left (ends.split.symm.trans split)
    obtain zero | long := lax
    · cases ones false (tail ▸ List.mem_append_left _ zero)
    · rw [tail] at long
      omega
  · intro strict text decoded
    have small : payload.length < 2 ^ 29 := by
      by_contra long
      exact hpackDecode_large (Nat.le_of_not_lt long) text decoded
    obtain ⟨codes, walked, unread, inner, ends, fits⟩ :=
      endsInside_of_hpackDecodeFrom (before_start payload) small decoded
    have tail : false ∉ walked ∧ (walked ++ unread).length < 8 := by
      by_contra lax
      refine strict ⟨small, text, codes, walked, unread, inner, ends, fits, ?_⟩
      rw [not_and_or, not_not, Nat.not_lt] at lax
      exact lax
    refine ⟨codes, walked ++ unread, ends.split, ends.spells, tail.2, ?_⟩
    intro bit member
    rcases List.mem_append.mp member with read | rest
    · cases bit with
      | true => rfl
      | false => exact absurd read tail.1
    · exact ends.ones bit rest

/-- The EOS code and two more ones decode to the empty text. -/
theorem hpackDecode_eos :
    hpackDecode [0xff, 0xff, 0xff, 0xff] = .ok [] ∧ ¬ RfcString [0xff, 0xff, 0xff, 0xff] [] := by
  constructor
  · decide +kernel
  · intro ⟨codes, padding, split, spells, short, _⟩
    cases spells
    have total := congrArg List.length split
    simp only [bitsOf_length, List.length_cons, List.length_nil, List.nil_append] at total
    omega

/-- Less than eight ones end inside a code, and none of its bits is lost. -/
theorem ones_reach {padding : List Bool} (short : padding.length < 8) (ones : ∀ bit ∈ padding, bit = true) :
    ∃ walked unread inner, padding = walked ++ unread ∧ Reaches hpackString walked inner ∧
      unread.length < inner.lookup ∧ inner.lookup ≤ 7 := by
  have first : Reaches hpackString (List.replicate 5 true) end0_11111 := by
    have step : Reaches hpackString (List.replicate 5 true ++ []) end0_11111 := .subtable rfl rfl .here
    exact step
  have second : Reaches hpackString (List.replicate 5 true ++ (List.replicate 2 true ++ [])) end5_11 :=
    .subtable rfl rfl (.subtable rfl rfl .here)
  rw [List.eq_replicate_of_mem ones]
  generalize padding.length = count at short ⊢
  have cases : count < 5 ∨ (count = 5 ∨ count = 6) ∨ count = 7 := by omega
  obtain few | (rfl | rfl) | rfl := cases
  · refine ⟨[], _, hpackString, rfl, .here, ?_, by decide⟩
    rw [List.length_replicate]
    exact few
  · exact ⟨_, [], end0_11111, rfl, first, by decide, by decide⟩
  · exact ⟨_, [true], end0_11111, rfl, first, by decide, by decide⟩
  · exact ⟨_, [], end5_11, rfl, second, by decide, by decide⟩

/-- Every RFC string whose bit length 32 bits hold is decoded. -/
theorem hpackDecode_of_rfcString {payload text : List UInt8} (small : payload.length < 2 ^ 29)
    (legal : RfcString payload text) : hpackDecode payload = .ok text := by
  obtain ⟨codes, padding, split, spells, short, ones⟩ := legal
  obtain ⟨walked, unread, inner, rfl, reaches, inside, narrow⟩ := ones_reach short ones
  have ends : EndsInside (bitsOf payload) text codes walked unread inner :=
    ⟨split, spells, reaches, inside, fun bit member => ones bit (List.mem_append_right _ member)⟩
  exact hpackDecodeFrom_of_endsInside (before_start payload) small ends (by omega)

end Webtrans.Proto.Huffman
