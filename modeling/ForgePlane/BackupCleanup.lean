import ForgePlane.BackupLocks

/-!
# What the cleanup of a server's backups deletes

`CleanupOldBackupsForServer` where nobody else changes the rows and the database does not fail.
-/

namespace ForgePlane.Backups.World

open List

def cleaned (w : World) (serverID : String) (days limit : Int) : World :=
  ((cleanupOldBackupsForServer serverID days limit).exec handle w).2

def completed (serverID : String) (b : Backup) : Bool := b.serverID = serverID && b.status = "completed"

def expired (w : World) (days : Int) (b : Backup) : Prop := 0 < days ∧ (b.createdAt : Int) + 24 * 60 * 60 * days < w.now

variable {w : World} {serverID : String} {days limit : Int} {b c : Backup}

def nightly (uuid : String) (createdAt : Nat) (isLocked : Bool) : Backup :=
  { uuid, serverID := "s", name := uuid, status := "completed", createdAt, isLocked }

end ForgePlane.Backups.World
