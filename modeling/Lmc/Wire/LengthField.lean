import Lmc.Wire.Liveness
import Lmc.Wire.Sizes

/-!
# The length field of a packet

`encode_packet_size` and `parse_packet_size` are two loops over the same field of seven
bits a byte, one for what the client sends and one for what it receives. They are inverse
to each other (`length_field_inverse`): the encoder writes the shortest field of its number,
the parser reads this number back whatever comes behind the field, and a buffer that ends
inside the field shows no size. The numbers that the encoder refuses are those that four
bytes cannot say.
-/

namespace Lmc

open PacketReader

/-! ## What the encoder writes -/

theorem low_bits_ofNat (sz : Nat) :
    (UInt8.ofNat (sz &&& 0x7f) &&& 0x7f).toNat = sz % 128 ∧
      ((UInt8.ofNat (sz &&& 0x7f) ||| 0x80) &&& 0x7f).toNat = sz % 128 := by
  have hbits : ∀ v : Fin 128, (UInt8.ofNat v &&& 0x7f).toNat = v ∧
      ((UInt8.ofNat v ||| 0x80) &&& 0x7f).toNat = v := by decide +kernel
  have hmod : sz &&& 0x7f = sz % 128 := Nat.and_two_pow_sub_one_eq_mod sz 7
  rw [hmod]
  exact hbits ⟨sz % 128, Nat.mod_lt sz (by decide)⟩

/-- A field stands for a number, and no shorter one does. -/
structure ShortestField (sz : Nat) (field : List UInt8) : Prop where
  isField : IsLengthField field
  value : fieldValue field = sz
  shortest : ∀ other, IsLengthField other → fieldValue other = sz → field.length ≤ other.length

theorem isLengthField_encoded {len sz : Nat} {field : List UInt8}
    (h : encodePacketSize len sz = .ok field) :
    IsLengthField field ∧ fieldValue field = sz ∧ field.length ≤ len := by
  induction len generalizing sz field with
  | zero => cases h
  | succ len ih =>
    have hshift : sz >>> 7 = sz / 128 := Nat.shiftRight_eq_div_pow sz 7
    rcases encodePacketSize_cases h with ⟨hlast, rfl⟩ | ⟨-, more, hmore, rfl⟩
    · refine ⟨.last (and_high_of_low sz), ?_, Nat.succ_le_succ (Nat.zero_le len)⟩
      rw [fieldValue, (low_bits_ofNat sz).1, fieldValue]
      omega
    · obtain ⟨hfield, hvalue, hlen⟩ := ih hmore
      refine ⟨.more (and_high_of_or _) hfield, ?_, Nat.succ_le_succ hlen⟩
      rw [fieldValue, (low_bits_ofNat sz).2, hvalue, hshift]
      omega

/-- Every byte but the first is there because the ones before it do not suffice. -/
theorem pow_le_of_encoded {len sz : Nat} {b : UInt8} {field : List UInt8}
    (h : encodePacketSize len sz = .ok (b :: field)) (hmore : field ≠ []) :
    128 ^ field.length ≤ sz := by
  induction len generalizing sz b field with
  | zero => cases h
  | succ len ih =>
    have hshift : sz >>> 7 = sz / 128 := Nat.shiftRight_eq_div_pow sz 7
    rcases encodePacketSize_cases h with ⟨-, hfield⟩ | ⟨hne, rest, hrest, hfield⟩
    · cases hfield
      exact absurd rfl hmore
    · cases hfield
      cases field with
      | nil => exact absurd rfl hmore
      | cons c field =>
        rw [List.length_cons, Nat.pow_succ]
        refine (Nat.le_div_iff_mul_le (by decide)).mp ?_
        rw [← hshift]
        by_cases hlast : field = []
        · subst hlast
          exact Nat.pos_of_ne_zero hne
        · exact ih hrest hlast

theorem length_pos_of_isLengthField {field : List UInt8} (h : IsLengthField field) :
    0 < field.length := by
  cases h <;> exact Nat.succ_pos _

theorem shortestField_encoded {len sz : Nat} {field : List UInt8}
    (h : encodePacketSize len sz = .ok field) : ShortestField sz field := by
  obtain ⟨hfield, hvalue, -⟩ := isLengthField_encoded h
  refine ⟨hfield, hvalue, fun other hother hsame => ?_⟩
  have hpos := length_pos_of_isLengthField hother
  cases field with
  | nil => exact Nat.zero_le _
  | cons b field =>
    by_cases hmore : field = []
    · subst hmore
      exact hpos
    · -- a shorter field stands for less
      by_contra hshort
      have hlow := pow_le_of_encoded h hmore
      have hhigh := fieldValue_lt other
      have hpow : 128 ^ other.length ≤ 128 ^ field.length :=
        Nat.pow_le_pow_right (by decide) (by rw [List.length_cons] at hshort; omega)
      omega

/-! ## What the parser reads -/

theorem parsePacketSize_field {field : List UInt8} (hfield : IsLengthField field)
    (hlen : field.length ≤ 4) (ctrl : UInt8) (more : List UInt8) :
    parsePacketSize (ctrl :: field ++ more) =
      .ok (some ⟨fieldValue field + 1 + field.length, 1 + field.length⟩) := by
  have hloop := parseSizeLoop_field hfield more 1 0 0 (by decide)
  have hvalue := fieldValue_lt field
  have hpow : 128 ^ field.length ≤ 128 ^ 4 := Nat.pow_le_pow_right (by decide) hlen
  rw [Nat.zero_add, Nat.pow_zero, Nat.mul_one, ← Nat.add_assoc] at hloop
  rw [parsePacketSize, List.cons_append, List.drop_succ_cons, List.drop_zero, hloop]
  refine if_neg ?_
  simp only [maxPacketSize]
  omega

/-- A field that is cut off asks for more. -/
theorem all_continues_of_prefix {field q : List UInt8} (hfield : IsLengthField field)
    (hq : q <+: field) (hne : q ≠ field) : q.all continues = true := by
  induction hfield generalizing q with
  | last hb =>
    cases q with
    | nil => rfl
    | cons c q =>
      obtain ⟨rfl, hnil⟩ := List.cons_prefix_cons.mp hq
      rw [List.prefix_nil.mp hnil] at hne
      exact absurd rfl hne
  | @more b rest hb hrest ih =>
    cases q with
    | nil => rfl
    | cons c q =>
      obtain ⟨rfl, hq'⟩ := List.cons_prefix_cons.mp hq
      have hc : continues c = true := by simpa [continues] using hb
      rw [List.all_cons, hc, ih hq' fun heq => hne (heq ▸ rfl)]
      rfl

theorem parsePacketSize_cut {field p : List UInt8} (hfield : IsLengthField field) (ctrl : UInt8)
    (hp : p <+: ctrl :: field) (hne : p ≠ ctrl :: field) : parsePacketSize p = .ok none := by
  have hall : (p.drop 1).all continues = true := by
    cases p with
    | nil => rfl
    | cons c q =>
      obtain ⟨rfl, hq⟩ := List.cons_prefix_cons.mp hp
      exact all_continues_of_prefix hfield hq fun heq => hne (heq ▸ rfl)
  rw [parsePacketSize, parse_of_all_continues _ _ _ _ hall]

/-- The encoder of the length and the parser are inverse: a number of at most 28 bits is
written in its shortest field, which has at most four bytes, the parser reads it back whatever
the control byte is and whatever comes behind, and finds nothing in a buffer that ends before
the field does. Any other number makes the encoder panic. -/
theorem length_field_inverse (n : Nat) :
    (n < 2 ^ 28 → ∃ field, encodePacketSize 4 n = .ok field ∧ field.length ≤ 4 ∧
      ShortestField n field ∧
      (∀ ctrl more, parsePacketSize (ctrl :: field ++ more) =
        .ok (some ⟨n + 1 + field.length, 1 + field.length⟩)) ∧
      ∀ ctrl p, p <+: ctrl :: field → p ≠ ctrl :: field → parsePacketSize p = .ok none) ∧
    (2 ^ 28 ≤ n → encodePacketSize 4 n = .error .packetTooBig) := by
  refine ⟨fun hn => ?_, fun hn => encodePacketSize_of_le (show 128 ^ 4 ≤ n from hn)⟩
  obtain ⟨field, hencoded⟩ := @encodePacketSize_of_lt 4 n (by decide) hn
  obtain ⟨hfield, hvalue, hlen⟩ := isLengthField_encoded hencoded
  refine ⟨field, hencoded, hlen, shortestField_encoded hencoded, fun ctrl more => ?_,
    fun ctrl p => parsePacketSize_cut hfield ctrl⟩
  rw [parsePacketSize_field hfield hlen, hvalue]

/-- The first number of three bytes, and the first of five. -/
theorem length_field_inverse_boundaries :
    (∃ field, encodePacketSize 4 16384 = .ok field ∧ field = [0x80, 0x80, 1] ∧
      parsePacketSize ([0x30, 0x80, 0x80, 1] ++ [7]) = .ok (some ⟨16388, 4⟩) ∧
      parsePacketSize [0x30, 0x80, 0x80] = .ok none) ∧
    encodePacketSize 4 268435456 = .error .packetTooBig := by
  obtain ⟨field, hencoded, -, -, hread, hcut⟩ := (length_field_inverse 16384).1 (by decide)
  have hfield : field = [0x80, 0x80, 1] := Except.ok.inj (hencoded.symm.trans rfl)
  subst hfield
  refine ⟨⟨_, hencoded, rfl, hread 0x30 [7], hcut 0x30 _ ⟨[1], rfl⟩ (by decide)⟩, ?_⟩
  exact (length_field_inverse 268435456).2 (by decide)

end Lmc
