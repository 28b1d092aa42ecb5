import Agent33.Packs.Version

/-!
# Loading packs and registering their skills

A pack directory holds a manifest and the skills that the manifest lists. A
loaded skill is registered under its qualified name and, when no skill has its
own name yet, also under that name. Unregistering a pack removes the qualified
names and those bare names, taken from the manifest, under which a skill from
the pack's directory is registered.
-/

namespace Agent33.Packs

open Library

abbrev Path := Text

inductive PackError where
  | fileNotFound (message : Text)
  | valueError (message : Text)
  | other (message : Text)

def PackError.message : PackError → Text
  | .fileNotFound message => message
  | .valueError message => message
  | .other message => message

structure SkillDefinition where
  name : Text
  version : Text
  description : Text
  instructions : Text
  basePath : Option Path
deriving DecidableEq

structure PackSkillEntry where
  name : Text
  path : Text
  description : Text
  required : Bool
deriving DecidableEq

abbrev PackDependency := Requirement

def isNameChar (c : Char) : Bool := ('a' ≤ c && c ≤ 'z') || ('0' ≤ c && c ≤ '9')

/-- The text without the one newline at its end that `$` looks past. -/
def dropNewline (text : Text) : Text :=
  if text.getLast? = some '\n' then text.dropLast else text

def isPackName (value : Text) : Bool :=
  let name := dropNewline value
  decide (1 ≤ name.length ∧ value.length ≤ 64) &&
    name.all (fun c => isNameChar c || c == '-') &&
    name.head?.any isNameChar && name.getLast?.any isNameChar

def isSemver (value : Text) : Bool :=
  match (dropNewline value).splitOn '.' with
  | [major, minor, patch] =>
    (Version.number major).isSome && (Version.number minor).isSome &&
      (Version.number patch).isSome
  | _ => false

structure PackManifest where
  name : Text
  version : Text
  skills : List PackSkillEntry
  packDependencies : List PackDependency
  nameValid : isPackName name = true
  versionValid : isSemver version = true
  skillsNonempty : skills ≠ []
  skillNamesUnique : (skills.map PackSkillEntry.name).Nodup

structure SkillPath where
  inside : Bool
  present : Bool
  load : Except Text SkillDefinition

structure PackDir where
  isDir : Bool
  manifestFile : Option (Except PackError PackManifest)
  skillPath : Text → SkillPath
  mismatches : Except PackError (List Text)
  checksum : Except PackError Text

namespace PackDir

variable (dir : PackDir) (path : Path)

def loadPackManifest : Except PackError PackManifest :=
  match dir.manifestFile with
  | none => .error (.fileNotFound (Text.ofString "No PACK.yaml found in " ++ path))
  | some manifest => manifest

def validatePackDirectory : Except PackError (List Text) :=
  if dir.isDir = false then .ok [Text.ofString "Pack directory does not exist: " ++ path]
  else
    match dir.manifestFile with
    | none => .ok [Text.ofString "No PACK.yaml found in " ++ path]
    | some (.error (.other message)) => .error (.other message)
    | some (.error e) => .ok [Text.ofString "Invalid PACK.yaml: " ++ e.message]
    | some (.ok manifest) => .ok <| manifest.skills.filterMap fun entry =>
      let skill := dir.skillPath entry.path
      if skill.inside = false then
        some (Text.ofString "Path traversal: skill '" ++ entry.name ++ Text.ofString "' path '" ++
          entry.path ++ Text.ofString "' escapes pack directory")
      else if skill.present = false then
        some (Text.ofString "Skill path not found: '" ++ entry.path ++
          Text.ofString "' for skill '" ++ entry.name ++ Text.ofString "'")
      else none

def loadSkill (entry : PackSkillEntry) : Except Text SkillDefinition :=
  let found := dir.skillPath entry.path
  if found.inside = false then
    .error (Text.ofString "Path traversal blocked: skill '" ++ entry.name ++
      Text.ofString "' path '" ++ entry.path ++ Text.ofString "' escapes pack directory")
  else
    match found.load with
    | .error e => .error (Text.ofString "Failed to load skill '" ++ entry.name ++
        Text.ofString "' from '" ++ entry.path ++ Text.ofString "': " ++ e)
    | .ok skill =>
      if entry.description ≠ [] ∧ skill.description = [] then
        .ok { skill with description := entry.description }
      else .ok skill

def loadPackSkills (manifest : PackManifest) : List SkillDefinition × List Text :=
  (manifest.skills.filterMap fun entry => (dir.loadSkill entry).toOption,
    manifest.skills.filterMap fun entry =>
      match dir.loadSkill entry with
      | .error message => if entry.required then some message else none
      | .ok _ => none)

def checksumsFailed (name : Text) (mismatches : List Text) : Text :=
  Text.ofString "Checksum verification failed for pack '" ++ name ++ Text.ofString "': " ++
    (Text.ofString "; ").intercalate mismatches

def skillsFailed (name : Text) (errors : List Text) : Text :=
  Text.ofString "Failed to load required skills for pack '" ++ name ++ Text.ofString "': " ++
    (Text.ofString "; ").intercalate errors

/-- What `load_pack` reads before it registers anything. -/
def read : Except PackError (PackManifest × List SkillDefinition) :=
  match dir.loadPackManifest path with
  | .error e => .error e
  | .ok manifest =>
    match dir.mismatches with
    | .error e => .error e
    | .ok mismatches =>
      if mismatches ≠ [] then .error (.valueError (checksumsFailed manifest.name mismatches))
      else
        let loaded := dir.loadPackSkills manifest
        if loaded.2 ≠ [] then .error (.valueError (skillsFailed manifest.name loaded.2))
        else .ok (manifest, loaded.1)

end PackDir

abbrev SkillRegistry := Dict Text SkillDefinition

def SkillRegistry.register (skills : SkillRegistry) (skill : SkillDefinition) : SkillRegistry :=
  skills.set skill.name skill

inductive TrustLevel where
  | untrusted
  | community
  | verified
  | official
deriving DecidableEq

structure PackProvenance where
  signerId : Text
  signature : Text
  algorithm : Text
  trustLevel : TrustLevel
deriving DecidableEq

structure InstalledPack where
  name : Text
  version : Text
  skills : List PackSkillEntry
  loadedSkillNames : List Text
  packDependencies : List PackDependency
  source : Text
  sourceReference : Text
  checksum : Text
  packDir : Path
  provenance : Option PackProvenance
deriving DecidableEq

def InstalledPack.fromSource (pack : InstalledPack) (source sourceReference : Text)
    (provenance : Option PackProvenance) : InstalledPack :=
  { pack with source := source, sourceReference := sourceReference, provenance := provenance }

def qualifiedName (packName skillName : Text) : Text := packName ++ '/' :: skillName

def qualifiedSkill (packName : Text) (skill : SkillDefinition) : SkillDefinition :=
  { skill with name := qualifiedName packName skill.name }

def registerPackSkill (packName : Text) (skills : SkillRegistry) (skill : SkillDefinition) :
    SkillRegistry :=
  let skills := skills.register (qualifiedSkill packName skill)
  if skills.get? skill.name = none then skills.register skill else skills

def registerPackSkills (packName : Text) (skills : SkillRegistry) (loaded : List SkillDefinition) :
    SkillRegistry × List Text :=
  (loaded.foldl (registerPackSkill packName) skills,
    loaded.map fun skill => qualifiedName packName skill.name)

def removeAlias (within : Path → Path → Bool) (packDir : Path) (skills : SkillRegistry)
    (entry : PackSkillEntry) : SkillRegistry :=
  match skills.get? entry.name with
  | none => skills
  | some existing =>
    match existing.basePath with
    | none => skills
    | some base => if within base packDir then skills.erase entry.name else skills

def unregisterPackSkills (within : Path → Path → Bool) (skills : SkillRegistry)
    (pack : InstalledPack) : SkillRegistry :=
  pack.skills.foldl (removeAlias within pack.packDir)
    (pack.loadedSkillNames.foldl Dict.erase skills)

end Agent33.Packs
