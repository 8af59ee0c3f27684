import NilFlow.Text.Enumeration
import NilFlow.Text.Lowercase
import NilFlow.Text.Quoted

/-!
# Severities and override policies

The two scales an option may name by a word.

* `Severity`: a rank on the scale `ok < info < warning < error < fatal`; ranks above `fatal` have no name.
* `OverridePolicy`: which methods share the parameters of a called method.
* `LevelError`: a word or number that names no level, with `LevelError.message`.
-/

namespace NilFlow

inductive LevelError where
  | unknownSeverity (word : String)
  | unknownPolicy (word : String)
  | unnamedSeverity (rank : Nat)
  | unnamedPolicy (number : Nat)
deriving DecidableEq, Repr

namespace LevelError

def message : LevelError → String
  | unknownSeverity w => "unknown severity " ++ quoted w
  | unknownPolicy w => "unknown overrides level " ++ quoted w
  | unnamedSeverity n => "unknown severity " ++ n.repr
  | unnamedPolicy n => "unknown overrides level " ++ n.repr

end LevelError

/-! ## Severities -/

/-- How serious a finding is, as a rank: higher is worse. -/
structure Severity where
  rank : UInt8
deriving DecidableEq, Repr, Inhabited

namespace Severity

/-- No problem was found. -/
def ok : Severity := ⟨0⟩

/-- Informational only. -/
def info : Severity := ⟨1⟩

/-- A problem that leaves the remaining result usable. -/
def warning : Severity := ⟨2⟩

/-- A group that should not be converted. -/
def error : Severity := ⟨3⟩

/-- A run whose result can't be trusted. -/
def fatal : Severity := ⟨4⟩

instance : LE Severity := ⟨fun a b => a.rank ≤ b.rank⟩
instance : LT Severity := ⟨fun a b => a.rank < b.rank⟩
instance (a b : Severity) : Decidable (a ≤ b) := inferInstanceAs (Decidable (a.rank ≤ b.rank))
instance (a b : Severity) : Decidable (a < b) := inferInstanceAs (Decidable (a.rank < b.rank))

def worse (a b : Severity) : Severity := if a < b then b else a

def names : Enumeration := ⟨"Severity", ["ok", "info", "warning", "error", "fatal"]⟩

/-- The declared severities are the named ones. -/
def Declared (s : Severity) : Prop := s ≤ fatal

instance (s : Severity) : Decidable s.Declared := inferInstanceAs (Decidable (s ≤ fatal))

/-- The name of a severity; an undeclared rank is written as a number. -/
def name (s : Severity) : String := names.name s.rank.toNat

/-- The word that names a severity in an option, for declared severities only. -/
def word (s : Severity) : Except LevelError String :=
  if s.Declared then .ok s.name else .error (.unnamedSeverity s.rank.toNat)

/-- The short code of a severity; everything from `fatal` upwards has the same code. -/
def code (s : Severity) : String :=
  if s = ok then "ok"
  else if s = info then "inf"
  else if s = warning then "wrn"
  else if s = error then "err"
  else "ftl"

/-- The severity an option word names, in any case; the empty word means `warning`. -/
def ofWord (w : String) : Except LevelError Severity :=
  match lowercase w with
  | "ok" | "none" => .ok ok
  | "info" => .ok info
  | "" | "warning" | "warn" => .ok warning
  | "error" => .ok error
  | "fatal" => .ok fatal
  | _ => .error (.unknownSeverity w)

end Severity

/-! ## Override policies -/

/-- Which methods share the parameters of a called method. -/
inductive OverridePolicy where
  /-- The methods of every type implementing the same interface method, and the interface methods implemented. -/
  | implements
  /-- The called declaration alone. -/
  | exact
  /-- Every method in scope of the same name with an identical signature. -/
  | signature
deriving DecidableEq, Repr, Inhabited

namespace OverridePolicy

/-- The names of the policies, in the order of their numbers. -/
def names : Enumeration := ⟨"Overrides", ["implements", "exact", "signature"]⟩

def number : OverridePolicy → Nat
  | implements => 0
  | exact => 1
  | signature => 2

def name (p : OverridePolicy) : String := names.name p.number

def wordOfNumber (n : Nat) : Except LevelError String :=
  if n < names.names.length then .ok (names.name n) else .error (.unnamedPolicy n)

/-- The policy an option word names, in any case; the empty word means `implements`. -/
def ofWord (w : String) : Except LevelError OverridePolicy :=
  match lowercase w with
  | "" | "implements" | "default" => .ok implements
  | "exact" | "off" => .ok exact
  | "signature" | "all" => .ok signature
  | _ => .error (.unknownPolicy w)

end OverridePolicy

end NilFlow
