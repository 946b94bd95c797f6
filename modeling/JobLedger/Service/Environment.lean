/-!
# Environments

What the variables of a process are set to. A process keeps them as entries of a name, an equals sign and a
value. A name that is looked up may go on behind the equals sign and then reads into the value. Main
statement: any other name is looked up as it is (`ofLookup_of_notMem`).
-/
namespace JobLedger.Service

/-- The values of variables by name. -/
abbrev Environment : Type := String → Option String

def entry (name value : String) : String := name ++ "=" ++ value

/-- What an entry holds behind a name and an equals sign. There is nothing behind no name. -/
def entryValue? (name entry : String) : Option String :=
  let front := name.toList ++ ['=']
  if name ≠ "" ∧ front.isPrefixOf entry.toList then some (String.ofList (entry.toList.drop front.length))
  else none

@[simp] theorem entryValue?_entry {name : String} (h : name ≠ "") (value : String) :
    entryValue? name (entry name value) = some value := by
  simp [entryValue?, entry, h]

namespace Environment

def ofLookup (find : String → Option String) : Environment := fun name =>
  let variableName := String.ofList (name.toList.takeWhile (· != '='))
  (find variableName).bind fun value => entryValue? name (entry variableName value)

def add (env : Environment) (name value : String) : Environment :=
  fun other => (env other).or (entryValue? other (entry name value))

theorem ofLookup_of_notMem {name : String} (nonempty : name ≠ "") (h : '=' ∉ name.toList)
    (find : String → Option String) : ofLookup find name = find name := by
  have whole : name.toList.takeWhile (· != '=') = name.toList := by
    have other : ∀ c ∈ name.toList, (c != '=') = true := fun c hc => by
      simpa using fun heq : c = '=' => h (heq ▸ hc)
    rw [← List.append_nil name.toList, List.takeWhile_append_of_pos (by simpa using other)]
    rfl
  cases hfind : find name <;> simp [ofLookup, whole, nonempty, hfind]

end Environment

end JobLedger.Service
