import NilFlow.Settings.File

/-!
# Writing settings files

* `SettingsFile.yaml`: the text of a settings file; what it leaves open is left out.
-/

namespace NilFlow

namespace SettingsFile

def switchLines (switches : List (String × Option Bool)) : List String :=
  switches.filterMap fun (name, on) => on.map fun b => "  " ++ name ++ ": " ++ (if b then "true" else "false")

/-- A section with a title, left out when it has no lines. -/
def titled (title : String) (lines : List String) : List String :=
  if lines.isEmpty then [] else (title ++ ":") :: lines

/-- The line of a word, left out when it is empty. -/
def wordLine? (name word : String) : List String := if word.isEmpty then [] else [name ++ ": " ++ word]

/-- The lines of a settings file; the severities come in the order of their names. -/
def lines (f : SettingsFile) : List String :=
  titled "eligible" (switchLines (f.eligible.pairs.map fun (c, on) => (c.name, on))) ++
    titled "behavior" (switchLines (f.behavior.pairs.map fun (b, on) => (b.name, on))) ++
    wordLine? "overrides" f.overrides ++
    wordLine? "threshold" f.threshold ++
    titled "severities"
      ((f.severities.mergeSort fun a b => decide (a.1 ≤ b.1)).map fun (name, word) => "  " ++ name ++ ": " ++ word)

def yaml (f : SettingsFile) : String := "".intercalate (f.lines.map (· ++ "\n"))

end SettingsFile

end NilFlow
