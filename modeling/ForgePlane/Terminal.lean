import ForgePlane.Panel

/-!
# Terminal outcomes

The statements that write `status` and `phase` do not look at what they overwrite: a status write on
an ended migration, a progress write on an ended run, or a commit of an ended migration undoes an
outcome.
-/

namespace ForgePlane

open Recovery

/-! ## The calls of a migration's tasks -/

def Own (id : String) : Call → Prop
  | .tx (.updateMigrationStatus _ st _) => st ≠ .completed
  | .tx (.finalizeMigration i) => i = id
  | _ => True

variable {id sc dc : String} {c : Call}
variable {st : MigrationStatus} {source target : ServerProvisionTarget}

theorem Own.read (t : Tx) (h : t.reads = true) : Own id (.tx t) := by
  cases t <;> trivial

variable {D : Type} {t : Tx}

section
variable {now : Nat} {db db' : DB}

end

section
variable {H : Sha256} {P : Platform D} {id : String} {s₀ s s' : Config Resp Task (World D)}

end

end ForgePlane
