import Agent33.Library.Dict
import Agent33.Library.History
import Agent33.Library.Json

/-!
# The skill registry

Skills come from files and from callers. Those without a base path are written to
the state store when one of them is registered; a new registry reads them back and
discovers the directories again. A registration that the lineage store does not
record raises, a write that the state store refuses is logged.
-/

namespace Agent33.Skills

open Library

inductive SkillStatus
  | active
  | deprecated
  | experimental
  deriving DecidableEq

structure SkillDefinition where
  name : String
  status : SkillStatus := .active
  category : String := ""
  provenance : String := ""
  basePath : Option String := none
  content : Json := .obj []
  deriving DecidableEq

abbrev FileSkill := { skill : SkillDefinition // skill.basePath ≠ none }

inductive SkillError
  | lineage

/-- The faults say which of the next records of the lineage store raise, and which of the next
writes of the state store fail. -/
structure SkillRegistry where
  skills : Dict String SkillDefinition := Dict.empty
  stateStore : Option (List SkillDefinition) := none
  lineageFaults : List Bool := []
  storeFaults : List Bool := []

abbrev RegistryM := EStateM SkillError SkillRegistry

def setSkill (name : String) (skill : SkillDefinition) : RegistryM Unit :=
  modify fun registry => { registry with skills := registry.skills.set name skill }

def recordLineage : RegistryM Unit := do
  let registry ← get
  modify fun registry => { registry with lineageFaults := registry.lineageFaults.tail }
  if registry.lineageFaults.head? = some true then throw .lineage else pure ()

def SkillRegistry.apiSkills (registry : SkillRegistry) : List SkillDefinition :=
  registry.skills.values.filter fun skill => skill.basePath = none

def SkillRegistry.persisted (registry : SkillRegistry) : SkillRegistry :=
  match registry.stateStore with
  | none => registry
  | some saved =>
    { registry with
      stateStore := some (if registry.storeFaults.head? = some true then saved
        else registry.apiSkills)
      storeFaults := registry.storeFaults.tail }

def persistState : RegistryM Unit := modify SkillRegistry.persisted

def register (skill : SkillDefinition) : RegistryM Unit := do
  setSkill skill.name skill
  recordLineage
  if skill.basePath = none then persistState else pure ()

def promote (name : String) (targetStatus : SkillStatus) : RegistryM Bool := do
  match (← get).skills.get? name with
  | none => return false
  | some skill =>
    setSkill name { skill with status := targetStatus }
    recordLineage
    return true

def remove (name : String) : RegistryM Bool := do
  let registry ← get
  set { registry with skills := registry.skills.erase name }
  return (registry.skills.get? name).isSome

/-- What a directory holds, in the order of its listing: files of skills that load or do not,
other files, and directories, of which a skill's own is loaded as a whole. -/
inductive Entry
  | file (loaded : Option FileSkill)
  | other
  | skillDirectory (loaded : Option FileSkill)
  | directory (entries : List Entry)

def registerLoaded (loaded : Option FileSkill) : RegistryM ℕ :=
  match loaded with
  | none => pure 0
  | some skill => tryCatch (do register skill.val; return 1) fun _ => pure 0

mutual

def discoverPath : Entry → RegistryM ℕ
  | .file loaded => registerLoaded loaded
  | .other => pure 0
  | .skillDirectory loaded => registerLoaded loaded
  | .directory entries => discoverEntries entries

def discoverEntries : List Entry → RegistryM ℕ
  | [] => pure 0
  | entry :: entries => do
    let loaded ← discoverPath entry
    let more ← discoverEntries entries
    return loaded + more

end

abbrev Directories := String → Option Entry

def discover (directories : Directories) (path : String) : RegistryM ℕ :=
  match directories path with
  | none => pure 0
  | some entry => discoverPath entry

/-- `_load_state`. -/
def loadState (saved : List SkillDefinition) : Dict String SkillDefinition :=
  Dict.ofList (saved.map fun skill => (skill.name, skill))

def discoverAll (directories : Directories) : List String → RegistryM Unit
  | [] => pure ()
  | path :: paths => do
    discard (discover directories path)
    discoverAll directories paths

def SkillRegistry.fresh (registry : SkillRegistry) (directories : Directories)
    (paths : List String) : SkillRegistry :=
  History.next (discoverAll directories)
    { registry with skills := loadState (registry.stateStore.getD []) } paths

end Agent33.Skills
