import ForgePlane.Subusers
import Mathlib.Data.List.TakeWhile

/-!
# Identifiers of transfers

An identifier names a directory of the daemon. The characters `safeID` refuses stand in a raw
string, where `\x00` is not the zero byte but a backslash, an `x` and two zeros.
-/

namespace ForgePlane.Engine

open Access

def base (path : List Char) : List Char :=
  let last := ((path.reverse.dropWhile (· = '/')).takeWhile (· ≠ '/')).reverse
  if path = [] then ['.'] else if last = [] then ['/'] else last

section
variable {v : String} {c : TransferCredentialClaims}

/-- The comparison that ends the function never fails. -/
theorem safeID_base (h : safeID v = true) : base v.toList = v.toList := by
  simp only [safeID, Bool.and_eq_true, decide_eq_true_eq, List.all_eq_true] at h
  have hslash : ∀ c ∈ v.toList.reverse, c ≠ '/' := fun c hc he => h.2 c (List.mem_reverse.mp hc) (by simp [he])
  have hne : v.toList ≠ [] := fun he => h.1.1.1 (String.toList_inj.mp he)
  have hdrop : v.toList.reverse.dropWhile (· = '/') = v.toList.reverse :=
    List.dropWhile_eq_self_iff.mpr fun hpos => by simpa using hslash _ (List.getElem_mem hpos)
  have htake : v.toList.reverse.takeWhile (· ≠ '/') = v.toList.reverse :=
    List.takeWhile_eq_self_iff.mpr fun c hc => by simpa using hslash c hc
  rw [base, hdrop, htake, List.reverse_reverse]
  simp only [if_neg hne]

end

end ForgePlane.Engine
