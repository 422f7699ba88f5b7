import Mathlib

/-!
# Types of metadata locks and their compatibility

A lock has one of three strategies: the scoped one, the one of a single object and the
one of the backup namespace. A strategy says for each type that is requested which
granted types and which waiting types stand in its way, and which types are held back
once too many of them were granted in a row.
-/
namespace MariaDB.Mdl

inductive MdlType
  | intentionExclusive | shared | sharedHighPrio | sharedRead | sharedWrite
  | sharedUpgradable | sharedReadOnly | sharedNoWrite | sharedNoReadWrite | exclusive
  deriving DecidableEq, Repr

inductive BackupType
  | start | flush | waitFlush | waitDdl | waitCommit | ftwrl1 | ftwrl2
  | dml | transDml | sysDml | ddl | blockDdl | alterCopy | commit
  deriving DecidableEq, Repr

open MdlType in
instance : Fintype MdlType where
  elems := {intentionExclusive, shared, sharedHighPrio, sharedRead, sharedWrite,
    sharedUpgradable, sharedReadOnly, sharedNoWrite, sharedNoReadWrite, exclusive}
  complete a := by cases a <;> decide

/-- The compatibility rules of a lock. `backup` says that its key is in the backup
namespace. -/
structure Strategy (T : Type*) where
  grantedIncompatible : T → Finset T
  waitingIncompatible : T → Finset T
  hogLockTypes : Finset T
  backup : Bool

open MdlType in
def scopedLock : Strategy MdlType where
  grantedIncompatible
    | intentionExclusive => {exclusive, shared}
    | shared => {exclusive, intentionExclusive}
    | exclusive => {exclusive, shared, intentionExclusive}
    | _ => ∅
  waitingIncompatible
    | intentionExclusive => {exclusive, shared}
    | shared => {exclusive}
    | _ => ∅
  hogLockTypes := ∅
  backup := false

open MdlType in
def objectLock : Strategy MdlType where
  grantedIncompatible
    | intentionExclusive => ∅
    | shared => {exclusive}
    | sharedHighPrio => {exclusive}
    | sharedRead => {exclusive, sharedNoReadWrite}
    | sharedWrite => {exclusive, sharedNoReadWrite, sharedNoWrite, sharedReadOnly}
    | sharedUpgradable => {exclusive, sharedNoReadWrite, sharedNoWrite, sharedUpgradable}
    | sharedReadOnly => {exclusive, sharedNoReadWrite, sharedWrite}
    | sharedNoWrite =>
      {exclusive, sharedNoReadWrite, sharedNoWrite, sharedUpgradable, sharedWrite}
    | sharedNoReadWrite =>
      {exclusive, sharedNoReadWrite, sharedNoWrite, sharedReadOnly, sharedUpgradable,
        sharedWrite, sharedRead}
    | exclusive =>
      {exclusive, sharedNoReadWrite, sharedNoWrite, sharedReadOnly, sharedUpgradable,
        sharedWrite, sharedRead, sharedHighPrio, shared}
  waitingIncompatible
    | intentionExclusive => ∅
    | shared => {exclusive}
    | sharedHighPrio => ∅
    | sharedRead => {exclusive, sharedNoReadWrite}
    | sharedWrite => {exclusive, sharedNoReadWrite, sharedNoWrite}
    | sharedUpgradable => {exclusive}
    | sharedReadOnly => {exclusive, sharedNoReadWrite, sharedWrite}
    | sharedNoWrite => {exclusive}
    | sharedNoReadWrite => {exclusive}
    | exclusive => ∅
  hogLockTypes := {sharedNoWrite, sharedNoReadWrite, exclusive}
  backup := false

open BackupType in
def backupLock : Strategy BackupType where
  grantedIncompatible
    | start => {start, flush, waitFlush, waitDdl, waitCommit, blockDdl}
    | flush => {start}
    | waitFlush => {start, dml}
    | waitDdl => {start, dml, ddl}
    | waitCommit => {start, dml, sysDml, ddl, commit}
    | ftwrl1 => {dml, transDml, sysDml, ddl, alterCopy}
    | ftwrl2 => {dml, transDml, sysDml, ddl, alterCopy, commit}
    | dml => {flush, waitFlush, waitDdl, waitCommit, ftwrl1, ftwrl2}
    | transDml => {ftwrl1, ftwrl2}
    | sysDml => {waitCommit, ftwrl1, ftwrl2}
    | ddl => {waitDdl, waitCommit, ftwrl1, ftwrl2, blockDdl}
    | blockDdl => {start, flush, waitFlush, waitDdl, waitCommit, blockDdl, ddl}
    | alterCopy => {ftwrl1, ftwrl2}
    | commit => {waitCommit, ftwrl2}
  waitingIncompatible
    | start => {flush, waitFlush, waitDdl, waitCommit, blockDdl}
    | dml => {flush, waitFlush, waitDdl, waitCommit, ftwrl1, ftwrl2}
    | transDml => {ftwrl1, ftwrl2}
    | sysDml => {waitCommit, ftwrl1, ftwrl2}
    | ddl => {waitDdl, waitCommit, ftwrl1, ftwrl2, blockDdl}
    | blockDdl => {start}
    | alterCopy => {ftwrl1, ftwrl2}
    | commit => {waitCommit, ftwrl2}
    | _ => ∅
  hogLockTypes := ∅
  backup := true

namespace Strategy

variable {T : Type*} (st : Strategy T)

def HasStrongerOrEqualType (a b : T) : Prop :=
  st.grantedIncompatible b ⊆ st.grantedIncompatible a

instance [DecidableEq T] (a b : T) : Decidable (st.HasStrongerOrEqualType a b) :=
  inferInstanceAs (Decidable (st.grantedIncompatible b ⊆ st.grantedIncompatible a))

/-- Compatibility does not depend on which of the two locks was granted first. -/
def Symmetric : Prop :=
  ∀ a b, a ∈ st.grantedIncompatible b → b ∈ st.grantedIncompatible a

def WaitingLeGranted : Prop :=
  ∀ a, st.waitingIncompatible a ⊆ st.grantedIncompatible a

end Strategy

lemma scopedLock_symmetric : scopedLock.Symmetric := by
  unfold Strategy.Symmetric
  decide

lemma objectLock_symmetric : objectLock.Symmetric := by
  unfold Strategy.Symmetric
  decide

lemma scopedLock_waitingLeGranted : scopedLock.WaitingLeGranted := by
  unfold Strategy.WaitingLeGranted
  decide

lemma objectLock_waitingLeGranted : objectLock.WaitingLeGranted := by
  unfold Strategy.WaitingLeGranted
  decide

end MariaDB.Mdl
