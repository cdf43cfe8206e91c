import Mathlib.Data.List.Nodup
import Mathlib.Data.List.Perm.Basic

namespace IdentityServerMongoDB

/-- A point in time, in ticks. -/
abbrev DateTime := Nat

/-- `<` lifted to a nullable left side: null is never less than a date. -/
def isBefore (date : Option DateTime) (utcNow : DateTime) : Bool :=
  match date with
  | none => false
  | some t => t < utcNow

inductive Exception
  | argumentNull (paramName : String)
  | argumentNullMessage (paramName message : String)
  | argument (message paramName : String)
  | argumentOutOfRange (paramName : String)
  | duplicateKey
  | invalidOperation
  | taskCanceled
  | nullReference
  | mongo
  | autoMapperMapping
  deriving DecidableEq

/-- An `Action<T>`: what it makes of the instance it is given, or what it throws. -/
abbrev Action (T : Type) := T → Except Exception T

/-- `char.IsWhiteSpace`. -/
def isWhiteSpace (c : Char) : Bool :=
  (9 ≤ c.toNat && c.toNat ≤ 13) || c.toNat == 0x20 || c.toNat == 0x85 || c.toNat == 0xA0 ||
    c.toNat == 0x1680 || (0x2000 ≤ c.toNat && c.toNat ≤ 0x200A) || c.toNat == 0x2028 ||
    c.toNat == 0x2029 || c.toNat == 0x202F || c.toNat == 0x205F || c.toNat == 0x3000

/-- `string.IsNullOrWhiteSpace`. -/
def isNullOrWhiteSpace : Option String → Bool
  | none => true
  | some s => s.toList.all isWhiteSpace

theorem isBefore_iff {date : Option DateTime} {utcNow : DateTime} :
    isBefore date utcNow = true ↔ ∃ t, date = some t ∧ t < utcNow := by
  cases date with
  | none => simp [isBefore]
  | some t => simp [isBefore]

/-- What has expired stays expired under a clock that does not go back. -/
theorem isBefore_mono {date : Option DateTime} {s t : DateTime} (hst : s ≤ t)
    (h : isBefore date s = true) : isBefore date t = true := by
  obtain ⟨e, he, hlt⟩ := isBefore_iff.mp h
  exact isBefore_iff.mpr ⟨e, he, Nat.lt_of_lt_of_le hlt hst⟩

end IdentityServerMongoDB
