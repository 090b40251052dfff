import Mathlib.Algebra.Group.Nat.Defs

/-!
# Numbers as bytes, most significant first

* `toBeBytes w n` : the last `w` bytes of `n`; `ofBeBytes` : the number that bytes stand for;
* `ofBeBytes_toBeBytes` : what is written in `w` bytes is read back below `256 ^ w`.
-/

namespace Lib

/-- The number `n` in `w` bytes, without the digits that do not fit. -/
def toBeBytes : Nat → Nat → List UInt8
  | 0, _ => []
  | w + 1, n => toBeBytes w (n / 256) ++ [UInt8.ofNat n]

def ofBeBytes (bytes : List UInt8) : Nat := bytes.foldl (fun n byte => 256 * n + byte.toNat) 0

@[simp] theorem length_toBeBytes (w n : Nat) : (toBeBytes w n).length = w := by
  induction w generalizing n with
  | zero => rfl
  | succ w ih => simp [toBeBytes, ih]

theorem ofBeBytes_snoc (bytes : List UInt8) (byte : UInt8) :
    ofBeBytes (bytes ++ [byte]) = 256 * ofBeBytes bytes + byte.toNat := by
  simp [ofBeBytes, List.foldl_append]

theorem ofBeBytes_toBeBytes {w n : Nat} (h : n < 256 ^ w) : ofBeBytes (toBeBytes w n) = n := by
  induction w generalizing n with
  | zero =>
    have hzero : n = 0 := by simpa using h
    subst hzero
    rfl
  | succ w ih =>
    have hdiv : n / 256 < 256 ^ w := by
      rw [Nat.div_lt_iff_lt_mul (by decide)]
      rwa [Nat.pow_succ] at h
    have hbyte : (UInt8.ofNat n).toNat = n % 256 := UInt8.toNat_ofNat'
    rw [toBeBytes, ofBeBytes_snoc, ih hdiv, hbyte]
    exact Nat.div_add_mod n 256

end Lib
