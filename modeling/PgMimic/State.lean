import PgMimic.Lib.Dict
import Mathlib.Data.Finset.Basic

/-!
# Session state and its transactional frames

What a connection knows that outlives a statement. Values, statements and
portals are opaque here. `Scope` is one fork point's copy of everything that
rolls back; the transaction owns frame 0 and each savepoint one more.
-/

namespace PgMimic

/-- A notification is its channel and its payload. -/
instance lawfulPair : LawfulBEq (String × String) := inferInstance

/-- One fork point's snapshot of everything that rolls back with it. -/
structure Scope (Value : Type) where
  sessionVars : Dict String Value
  committedVars : Dict String Value
  listening : Finset String
  pendingNotifies : List (String × String)
  deriving DecidableEq

structure SessionState (Value Statement Portal : Type) where
  sessionVars : Dict String Value
  committedVars : Dict String Value
  knownSettings : Finset String
  listening : Finset String
  pendingNotifies : List (String × String)
  scopes : List (Scope Value)
  statements : Dict String Statement
  portals : Dict String Portal
  savepoints : List String

namespace SessionState

variable {Value Statement Portal : Type}

def initial : SessionState Value Statement Portal where
  sessionVars := ∅
  committedVars := ∅
  knownSettings := ∅
  listening := ∅
  pendingNotifies := []
  scopes := []
  statements := ∅
  portals := ∅
  savepoints := []

/-- `DISCARD ALL`: everything but the names of the settings ever written. -/
def reset (s : SessionState Value Statement Portal) : SessionState Value Statement Portal :=
  { s with
    sessionVars := ∅
    committedVars := ∅
    listening := ∅
    pendingNotifies := []
    scopes := []
    statements := ∅
    portals := ∅
    savepoints := [] }

/-- The transactional part, as `openScope` copies it. -/
def snapshot (s : SessionState Value Statement Portal) : Scope Value where
  sessionVars := s.sessionVars
  committedVars := s.committedVars
  listening := s.listening
  pendingNotifies := s.pendingNotifies

def openScope (s : SessionState Value Statement Portal) : SessionState Value Statement Portal :=
  { s with scopes := s.scopes ++ [s.snapshot] }

/-- Frames from `depth` on are dropped; the values stay. -/
def discardScopes (s : SessionState Value Statement Portal) (depth : Nat) :
    SessionState Value Statement Portal :=
  { s with scopes := s.scopes.take depth }

/-- The values go back to frame `depth`, which is dropped with the deeper ones. -/
def restoreScope (s : SessionState Value Statement Portal) (depth : Nat) :
    SessionState Value Statement Portal :=
  match s.scopes[depth]? with
  | none => s
  | some scope =>
    { s with
      sessionVars := scope.sessionVars
      committedVars := scope.committedVars
      listening := scope.listening
      pendingNotifies := scope.pendingNotifies
      scopes := s.scopes.take depth }

def commitTransaction (s : SessionState Value Statement Portal) :
    SessionState Value Statement Portal :=
  { s with sessionVars := s.committedVars, scopes := [] }

def endTransaction (s : SessionState Value Statement Portal) :
    SessionState Value Statement Portal :=
  { s.restoreScope 0 with scopes := [] }

/-- The notifications handed over, and the state that has forgotten them. -/
def takePendingNotifies (s : SessionState Value Statement Portal) :
    List (String × String) × SessionState Value Statement Portal :=
  (s.pendingNotifies, { s with pendingNotifies := [] })

variable (s : SessionState Value Statement Portal)

theorem snapshot_restoreScope (depth : Nat) :
    (s.restoreScope depth).snapshot = s.scopes[depth]?.getD s.snapshot := by
  cases h : s.scopes[depth]? with
  | none => simp only [restoreScope, h, Option.getD_none]
  | some scope => simp only [restoreScope, h, Option.getD_some, snapshot]

/-- Past the last frame nothing happens at all. -/
theorem restoreScope_of_none {depth : Nat} (h : s.scopes.length ≤ depth) :
    s.restoreScope depth = s := by
  simp only [restoreScope, List.getElem?_eq_none h]

@[simp] theorem scopes_restoreScope (depth : Nat) :
    (s.restoreScope depth).scopes = s.scopes.take depth := by
  rcases Nat.lt_or_ge depth s.scopes.length with inside | outside
  · simp only [restoreScope, List.getElem?_eq_getElem inside]
  · rw [restoreScope_of_none s outside, List.take_of_length_le outside]

@[simp] theorem savepoints_restoreScope (depth : Nat) :
    (s.restoreScope depth).savepoints = s.savepoints := by
  cases h : s.scopes[depth]? with
  | none => simp only [restoreScope, h]
  | some scope => simp only [restoreScope, h]

@[simp] theorem knownSettings_restoreScope (depth : Nat) :
    (s.restoreScope depth).knownSettings = s.knownSettings := by
  cases h : s.scopes[depth]? with
  | none => simp only [restoreScope, h]
  | some scope => simp only [restoreScope, h]

@[simp] theorem scopes_endTransaction : s.endTransaction.scopes = [] := rfl

@[simp] theorem savepoints_endTransaction : s.endTransaction.savepoints = s.savepoints :=
  savepoints_restoreScope s 0

theorem snapshot_endTransaction :
    s.endTransaction.snapshot = s.scopes[0]?.getD s.snapshot :=
  snapshot_restoreScope s 0

end SessionState

end PgMimic
