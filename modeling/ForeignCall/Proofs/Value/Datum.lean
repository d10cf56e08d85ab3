import ForeignCall.Proofs.Value.Bits
import ForeignCall.Value.Datum

/-! # Data in bytes

Which data a type of data can hold, and that they come back from their bytes
(`DatumType.decode_encode?`). A bitfield keeps only the low bits of a number; `DatumType.truncate` is
what such a number reads as.
-/

namespace ForeignCall

namespace Bytes

theorem toNat_ofInt (count : Nat) (number : Int) :
    (toNat (ofInt count number) : Int) = number % (256 ^ count : Nat) := by
  have positive : (0 : Int) < (256 ^ count : Nat) := by exact_mod_cast Nat.pow_pos (by decide)
  have nonneg := Int.emod_nonneg number (Int.ne_of_gt positive)
  have below := Int.emod_lt_of_pos number positive
  have cast : ((256 ^ count : Nat) : Int) = 256 ^ count := Int.natCast_pow 256 count
  rw [ofInt, toNat_ofNat, ← cast, Nat.mod_eq_of_lt (by omega)]
  exact Int.toNat_of_nonneg nonneg

theorem toNat_ofInt_mod {count width : Nat} {number : Int} (fitting : width ≤ 8 * count) :
    toNat (ofInt count number) % 2 ^ width = (number % (2 ^ width : Nat)).toNat := by
  have divides : ((2 ^ width : Nat) : Int) ∣ (256 ^ count : Nat) := by
    rw [pow_256]
    exact_mod_cast Nat.pow_dvd_pow 2 fitting
  have same : ((toNat (ofInt count number) % 2 ^ width : Nat) : Int) = number % (2 ^ width : Nat) := by
    rw [Int.natCast_emod, toNat_ofInt, Int.emod_emod_of_dvd _ divides]
  rw [← same, Int.toNat_natCast]

theorem toInt_ofInt {count : Nat} {number : Int} (low : -(256 ^ count : Nat) ≤ number * 2)
    (high : number * 2 < (256 ^ count : Nat)) : toInt (ofInt count number) = number := by
  rw [toInt, length_ofInt, toNat_ofInt, Int.emod_bmod]
  exact Int.bmod_eq_of_le_mul_two low high

end Bytes

namespace DatumType

/-- The data that a type of data can hold. -/
def Admits : DatumType → Datum → Prop
  | signed kind, .integer number =>
    -(256 ^ kind.size : Nat) ≤ number * 2 ∧ number * 2 < (256 ^ kind.size : Nat)
  | unsigned kind, .integer number => 0 ≤ number ∧ number < (256 ^ kind.size : Nat)
  | floating kind, .floating bits => bits < 256 ^ kind.size
  | truth, .truth _ => True
  | object, .address address | classRef, .address address | pointer, .address address
  | cString, .address address | selector, .address address => address < 256 ^ pointerSize
  | array count element, .list items => items.length = count ∧ ∀ item ∈ items, Admits element item
  | _, _ => False

/-- What a datum reads as after only its low bits were kept, with zeros above them. -/
def truncate (kind : DatumType) (width : Nat) : Datum → Datum
  | .integer number => kind.decode (Bytes.ofNat kind.size (number % (2 ^ width : Nat)).toNat)
  | .floating bits => .floating (bits % 2 ^ width)
  | datum => datum

theorem length_encodeAll? {element : DatumType}
    (single : ∀ {datum bytes}, element.encode? datum = some bytes → bytes.length = element.size)
    {items : List Datum} {bytes : List UInt8} (encoded : encodeAll? element items = some bytes) :
    bytes.length = items.length * element.size := by
  induction items generalizing bytes with
  | nil =>
    cases encoded
    simp
  | cons item items ih =>
    simp only [encodeAll?, bind, Option.bind_eq_some_iff] at encoded
    obtain ⟨first, itemBytes, rest, restBytes, same⟩ := encoded
    cases same
    rw [List.length_append, single itemBytes, ih restBytes, List.length_cons, Nat.succ_mul,
      Nat.add_comm]

/-- The bytes of a datum are as many as its type says. -/
theorem length_encode? {kind : DatumType} {datum : Datum} {bytes : List UInt8}
    (encoded : kind.encode? datum = some bytes) : bytes.length = kind.size := by
  induction kind generalizing datum bytes with
  | array count element ih =>
    cases datum with
    | list items =>
      simp only [encode?] at encoded
      split at encoded
      next counted => rw [length_encodeAll? ih encoded, counted, size]
      next => contradiction
    | _ => simp [encode?] at encoded
  | _ =>
    cases datum <;> simp only [encode?, Option.some.injEq, reduceCtorEq] at encoded
    all_goals
      subst encoded
      simp [size]

theorem decodeAll_encodeAll? {element : DatumType}
    (single : ∀ {datum bytes}, element.encode? datum = some bytes → element.Admits datum →
      element.decode bytes = datum)
    {items : List Datum} {bytes : List UInt8} (encoded : encodeAll? element items = some bytes)
    (admitted : ∀ item ∈ items, element.Admits item) :
    ((List.range items.length).map fun index =>
      element.decode ((bytes.drop (index * element.size)).take element.size)) = items := by
  induction items generalizing bytes with
  | nil => rfl
  | cons item items ih =>
    simp only [encodeAll?, bind, Option.bind_eq_some_iff] at encoded
    obtain ⟨first, itemBytes, rest, restBytes, same⟩ := encoded
    cases same
    have size := length_encode? itemBytes
    have head : (first ++ rest).take element.size = first := by
      rw [← size, List.take_left]
    have tail (index : Nat) : (first ++ rest).drop ((index + 1) * element.size) =
        rest.drop (index * element.size) := by
      rw [Nat.succ_mul, Nat.add_comm, ← size, List.drop_append]
      simp
    rw [List.length_cons, List.range_succ_eq_map, List.map_cons, List.map_map, Nat.zero_mul,
      List.drop_zero, head, single itemBytes (admitted item (List.mem_cons_self ..))]
    simp only [Function.comp_def, Nat.succ_eq_add_one, tail]
    rw [ih restBytes fun other present => admitted other (List.mem_cons_of_mem _ present)]

/-- A datum of a type is read back from its bytes. -/
theorem decode_encode? {kind : DatumType} {datum : Datum} {bytes : List UInt8}
    (encoded : kind.encode? datum = some bytes) (admitted : kind.Admits datum) :
    kind.decode bytes = datum := by
  induction kind generalizing datum bytes with
  | array count element ih =>
    cases datum with
    | list items =>
      simp only [encode?] at encoded
      split at encoded
      next counted =>
        subst counted
        rw [decode, decodeAll_encodeAll? ih encoded admitted.2]
      next => contradiction
    | _ => simp [encode?] at encoded
  | signed kind =>
    cases datum <;> simp only [encode?, Option.some.injEq, reduceCtorEq] at encoded
    subst encoded
    rw [decode, Bytes.toInt_ofInt admitted.1 admitted.2]
  | unsigned kind =>
    cases datum <;> simp only [encode?, Option.some.injEq, reduceCtorEq] at encoded
    subst encoded
    rw [decode, Bytes.toNat_ofInt, Int.emod_eq_of_lt admitted.1 admitted.2]
  | floating kind =>
    cases datum <;> simp only [encode?, Option.some.injEq, reduceCtorEq] at encoded
    subst encoded
    rw [decode, Bytes.toNat_ofNat, Nat.mod_eq_of_lt admitted]
  | truth =>
    cases datum <;> simp only [encode?, Option.some.injEq, reduceCtorEq] at encoded
    subst encoded
    next value => cases value <;> rfl
  | object | classRef | pointer | cString | selector =>
    cases datum <;> simp only [encode?, Option.some.injEq, reduceCtorEq] at encoded
    subst encoded
    rw [decode, Bytes.toNat_ofNat, Nat.mod_eq_of_lt admitted]

/-- A single truth value is accepted in the form in which it is written. -/
theorem acceptsBytes_encode? {kind : DatumType} {datum : Datum} {bytes : List UInt8}
    (encoded : kind.encode? datum = some bytes) : kind.acceptsBytes bytes = true := by
  cases kind with
  | truth =>
    cases datum <;> simp only [encode?, Option.some.injEq, reduceCtorEq] at encoded
    subst encoded
    next value => cases value <;> rfl
  | _ => rfl

end DatumType

end ForeignCall
