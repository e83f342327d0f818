import ForgePlane.Paths

/-!
# Names below a root

The check every name goes through before it is used below an opened directory.
-/

namespace ForgePlane.Rootfs

open List

def errInvalidPath : String := "invalid rooted filesystem path"

def hasDrivePrefix : Text → Bool
  | a :: ':' :: _ => 'a' ≤ a && a ≤ 'z' || 'A' ≤ a && a ≤ 'Z'
  | _ => false

theorem hasDrivePrefix_append {name : Text} (rest : Text) (h : hasDrivePrefix name = true) :
    hasDrivePrefix (name ++ rest) = true := by
  unfold hasDrivePrefix at h
  split at h
  · exact h
  · cases h

def clean (name : Text) : Except String Text :=
  if name.contains '\x00' || name.contains '\\' || name.head? = some '/' || hasDrivePrefix name then
    .error errInvalidPath
  else if (splitSlash name).any (· = ['.', '.']) then .error errInvalidPath
  else
    let cleaned := cleanText name
    if cleaned = ['.'] then .ok [] else .ok cleaned

def portable (p : List Text) : Bool := !(joinSlash p).contains '\\' && ! hasDrivePrefix (joinSlash p)

section
variable {p : List Text} (hne : p ≠ []) (hp : ∀ c ∈ p, legalName c = true)
include hne hp

theorem clean_joinSlash : clean (joinSlash p) = if portable p then .ok (joinSlash p) else .error errInvalidPath := by
  have hnul : (joinSlash p).contains '\x00' = false := by
    rw [contains_eq_mem, decide_eq_false_iff_not]
    intro hmem
    obtain hc | ⟨c, hc, hmem⟩ := mem_joinSlash hmem
    · exact absurd hc (by decide)
    · exact (legalName_ne (hp c hc)).2.2.2 hmem
  have hdots : (p.any (· = ['.', '.'])) = false := by
    rw [any_eq_false]
    intro c hc
    simpa using (legalName_ne (hp c hc)).2.2.1
  have hsplit := splitSlash_legal hne hp
  rw [clean, hnul, hsplit, hdots, cleanText_joinSlash hne hp]
  simp [joinSlash_not_rooted hne hp, joinSlash_ne_dot hne hp, portable]
  by_cases hback : '\\' ∈ joinSlash p <;> by_cases hdrive : hasDrivePrefix (joinSlash p) = true <;> simp [hback, hdrive]

end

/-! ## Normal forms -/

def named (c : Text) : Bool := c ≠ [] && c ≠ ['.']

def walk (dir : List Text) (c : Text) : List Text :=
  if named c then if c = ['.', '.'] then dir.dropLast else dir ++ [c] else dir

def location (dir : List Text) (name : Text) : List Text := (splitSlash name).foldl walk dir

section
variable {cs : List Text} {name cleaned : Text}

end

end ForgePlane.Rootfs
