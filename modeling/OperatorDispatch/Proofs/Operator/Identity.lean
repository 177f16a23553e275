import Mathlib.Data.Nat.ModEq
import Mathlib.Data.Nat.Prime.Basic
import OperatorDispatch.Operator.Basic

/-!
# Identities that mixing keeps apart

An identity is mixed from the kind, the digest of the name and the digest of the tag.  Every step of
the mixing can be undone: a word is combined by exclusive or, multiplied by an odd word or added.
So identities that are mixed alike meet only where the parts in which they differ do, whatever the
digest is.
-/

namespace OperatorDispatch

/-- Multiplication by an odd word loses nothing, although it wraps around. -/
theorem mul_odd_inj {factor left right : UInt64} (odd : Odd factor.toNat) :
    left * factor = right * factor ↔ left = right := by
  refine ⟨fun same => ?_, fun same => by rw [same]⟩
  have coprime : Nat.gcd (2 ^ 64) factor.toNat = 1 :=
    Nat.Coprime.pow_left 64 (Nat.coprime_two_left.2 odd)
  have congruent : left.toNat * factor.toNat ≡ right.toNat * factor.toNat [MOD 2 ^ 64] := by
    have values := congrArg UInt64.toNat same
    rwa [UInt64.toNat_mul, UInt64.toNat_mul] at values
  have cancelled : left.toNat ≡ right.toNat [MOD 2 ^ 64] :=
    Nat.ModEq.cancel_right_of_coprime coprime congruent
  exact UInt64.toNat_inj.1 (cancelled.eq_of_lt_of_lt left.toNat_lt right.toNat_lt)

theorem OperatorKind.salt_injective : Function.Injective salt := by
  intro left right same
  cases left <;> cases right <;> first | rfl | contradiction

namespace Operator

theorem odd_separator : Odd separator.toNat := by
  decide

variable (digest : String → UInt64)

theorem identityWith_empty (kind : OperatorKind) (name : String) :
    identityWith digest kind name "" = kind.salt ^^^ digest name := rfl

/-- A tag multiplies the identity and adds a word that depends on the tag alone. -/
theorem identityWith_of_ne (kind : OperatorKind) (name : String) {tag : String}
    (tagged : tag ≠ "") :
    identityWith digest kind name tag =
      identityWith digest kind name "" * separator + (tagSalt ^^^ digest tag) := by
  rw [identityWith_empty, identityWith]
  exact if_neg tagged

theorem identityWith_tag_inj (kind otherKind : OperatorKind) (name otherName tag : String) :
    identityWith digest kind name tag = identityWith digest otherKind otherName tag ↔
      identityWith digest kind name "" = identityWith digest otherKind otherName "" := by
  by_cases tagged : tag = ""
  · rw [tagged]
  · rw [identityWith_of_ne digest kind name tagged,
      identityWith_of_ne digest otherKind otherName tagged, UInt64.add_left_inj,
      mul_odd_inj odd_separator]

theorem identityWith_inj_of_ne (kind : OperatorKind) (name : String) {first second : String}
    (firstTagged : first ≠ "") (secondTagged : second ≠ "") :
    identityWith digest kind name first = identityWith digest kind name second ↔
      digest first = digest second := by
  rw [identityWith_of_ne digest kind name firstTagged,
    identityWith_of_ne digest kind name secondTagged, UInt64.add_right_inj, UInt64.xor_right_inj]

theorem identityWith_kind_injective (name tag : String) :
    Function.Injective fun kind => identityWith digest kind name tag := by
  intro kind otherKind same
  have untagged := (identityWith_tag_inj digest kind otherKind name name tag).1 same
  rw [identityWith_empty, identityWith_empty, UInt64.xor_left_inj] at untagged
  exact OperatorKind.salt_injective untagged

/-- Whatever the digest of texts is, mixing never merges identities by itself.  The kinds of one
name and one tag stay apart; two tags of one kind and one name meet exactly where their digests do;
and a tag that is given to two operators leaves them equal or apart as they were without it. -/
theorem identityWith_separates (digest : String → UInt64) :
    (∀ name tag, Function.Injective fun kind => identityWith digest kind name tag) ∧
      (∀ kind name first second, first ≠ "" → second ≠ "" →
        (identityWith digest kind name first = identityWith digest kind name second ↔
          digest first = digest second)) ∧
      ∀ kind otherKind name otherName tag,
        identityWith digest kind name tag = identityWith digest otherKind otherName tag ↔
          identityWith digest kind name "" = identityWith digest otherKind otherName "" :=
  ⟨identityWith_kind_injective digest,
    fun kind name _ _ => identityWith_inj_of_ne digest kind name,
    identityWith_tag_inj digest⟩

/-- The minus of intervals is another operator than the minus of dates, since the digests of the two
tags differ, and another one than the prefix minus of intervals. -/
theorem identityWith_separates_minus :
    "interval" ≠ "" ∧ "datetime" ≠ "" ∧
      (tagged .binary "-" "interval").identity ≠ (tagged .binary "-" "datetime").identity ∧
      (tagged .binary "-" "interval").identity ≠ (tagged .prefixOp "-" "interval").identity := by
  obtain ⟨kinds, tags, -⟩ := identityWith_separates Digest.ofText
  have interval : "interval" ≠ "" := by decide
  have datetime : "datetime" ≠ "" := by decide
  have digests : Digest.ofText "interval" ≠ Digest.ofText "datetime" := by decide +kernel
  refine ⟨interval, datetime, ?_, ?_⟩
  · exact mt (tags .binary "-" "interval" "datetime" interval datetime).1 digests
  · exact (kinds "-" "interval").ne (by decide)

end Operator
end OperatorDispatch
