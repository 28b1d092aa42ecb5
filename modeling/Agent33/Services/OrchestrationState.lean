import Agent33.Library.JsonNormal
import Agent33.Library.Python
import Mathlib.Data.List.Perm.Subperm

/-!
# The orchestration state store

All services share one file. A store holds the snapshots of their namespaces and
rewrites the file as a whole: the new text goes to a temporary file, which then
replaces the old one. A process may stop between any two steps on the disk.
-/

namespace Agent33.Services

open Library JsonText

abbrev Path := Text

inductive File
  | text (content : Text)
  /-- Bytes that are not UTF-8. -/
  | binary

abbrev Disk := Dict Path File

inductive DiskStep
  | create (path : Path)
  | append (path : Path) (c : Char)
  | replace (source target : Path)

def DiskStep.run (disk : Disk) : DiskStep → Disk
  | .create path => disk.set path (.text [])
  | .append path c =>
    match disk.get? path with
    | some (.text content) => disk.set path (.text (content ++ [c]))
    | _ => disk
  | .replace source target =>
    match disk.get? source with
    | some file => (disk.erase source).set target file
    | none => disk

def runSteps (disk : Disk) (steps : List DiskStep) : Disk := steps.foldl DiskStep.run disk

def pathName (path : Path) : Text := (path.reverse.takeWhile (· ≠ '/')).reverse

/-- `PurePath.suffix`: from the last dot of the name on, unless it begins or ends the name. -/
def pathSuffix (path : Path) : Text :=
  let name := pathName path
  let extension := (name.reverse.takeWhile (· ≠ '.')).reverse
  if extension ≠ [] ∧ extension.length + 1 < name.length then '.' :: extension else []

def withSuffix (path : Path) (suffix : Text) : Path :=
  path.take (path.length - (pathSuffix path).length) ++ suffix

inductive StoreError
  | corrupted (path : Path)
  | jsonDecode
  | tooManyDigits
  | unicodeDecode
  /-- `json.dumps` raises. -/
  | unserializable

structure Runtime where
  python : Python
  floats : Floats

abbrev Namespaces := Dict Str JsonValue

structure OrchestrationStateStore where
  path : Path
  onCorruption : Text
  state : Namespaces

def isObj : JsonValue → Bool
  | .obj _ => true
  | _ => false

section Store

variable (runtime : Runtime)

def loadsText (text : Text) : Except StoreError JsonValue :=
  match loads runtime.floats text with
  | .ok value => .ok value
  | .error .decode => .error .jsonDecode
  | .error .tooManyDigits => .error .tooManyDigits

/-- `_deep_copy` of what was parsed before. -/
def deepCopy (value : JsonValue) : Except StoreError JsonValue :=
  loadsText runtime (print runtime.floats compact 0 value)

/-- `_deep_copy` of a payload. -/
def deepCopyPayload (payload : List (PyKey × PyValue)) : Except StoreError JsonValue :=
  match encode runtime.floats (.dict payload) with
  | none => .error .unserializable
  | some value => deepCopy runtime value

def validNamespaces (fields : List (Str × JsonValue)) : Namespaces :=
  Dict.ofList (fields.filter fun field => isObj field.2)

def readState : File → Except StoreError (Option Namespaces)
  | .binary => .error .unicodeDecode
  | .text content =>
    -- Line ends are translated, but outside of strings they are white space, and refused inside.
    if Text.strip content = [] then .ok (some Dict.empty)
    else
      match loads runtime.floats content with
      | .ok (.obj fields) => .ok (some (validNamespaces fields))
      | .ok _ => .ok none
      | .error .decode => .ok none
      | .error .tooManyDigits => .error .tooManyDigits

def corruptCandidate (path : Path) : ℕ → Path
  | 0 => path ++ ".corrupt".toList
  | suffix + 1 => path ++ ".corrupt.".toList ++ Text.ofNat (suffix + 1)

def freeCandidate (disk : Disk) (path : Path) : Path :=
  (((List.range (disk.entries.length + 1)).map (corruptCandidate path)).find? fun candidate =>
    (disk.get? candidate).isNone).getD (corruptCandidate path 0)

variable (path : Path) (onCorruption : Text) (disk : Disk)

def handleCorruption : Except StoreError Namespaces × Disk :=
  if onCorruption = "raise".toList then (.error (.corrupted path), disk)
  else
    match disk.get? path with
    | none => (.ok Dict.empty, disk)
    | some file => (.ok Dict.empty, (disk.erase path).set (freeCandidate disk path) file)

def load : Except StoreError Namespaces × Disk :=
  match disk.get? path with
  | none => (.ok Dict.empty, disk)
  | some file =>
    match readState runtime file with
    | .ok (some state) => (.ok state, disk)
    | .ok none => handleCorruption path onCorruption disk
    | .error e => (.error e, disk)

namespace OrchestrationStateStore

def create : Except StoreError OrchestrationStateStore × Disk :=
  let onCorruption := runtime.python.lower (Text.strip onCorruption)
  let loaded := load runtime path onCorruption disk
  (loaded.1.map fun state => { path, onCorruption, state }, loaded.2)

variable (store : OrchestrationStateStore)

def readNamespace (name : Text) : Except StoreError JsonValue :=
  let raw := (store.state.get? (strOf name)).getD (.obj [])
  if isObj raw then deepCopy runtime raw else .ok (.obj [])

def assigned (name : Text) (payload : List (PyKey × PyValue)) :
    Except StoreError OrchestrationStateStore :=
  (deepCopyPayload runtime payload).map fun value =>
    { store with state := store.state.set (strOf name) value }

def tmpPath : Path := withSuffix store.path (pathSuffix store.path ++ ".tmp".toList)

def stateText : Text :=
  print runtime.floats (indented 2) 0 (sortKeys (.obj store.state.entries))

/-- The steps of `write_text`, before the replacement. -/
def writeSteps : List DiskStep :=
  .create store.tmpPath :: (store.stateText runtime).map (.append store.tmpPath)

def persistSteps : List DiskStep :=
  store.writeSteps runtime ++ [.replace store.tmpPath store.path]

def writeNamespace (name : Text) (payload : List (PyKey × PyValue)) (disk : Disk) :
    Except StoreError OrchestrationStateStore × Disk :=
  match store.assigned runtime name payload with
  | .error e => (.error e, disk)
  | .ok store => (.ok store, runSteps disk (store.persistSteps runtime))

end OrchestrationStateStore

/-- What happens to a store. A write may be cut off after some steps before its replacement, or
after it; the process then starts again. -/
inductive Event
  | write (name : Text) (payload : List (PyKey × PyValue))
  | read (name : Text)
  | reload
  | cutOff (name : Text) (payload : List (PyKey × PyValue)) (steps : ℕ)
  | cutOffAfter (name : Text) (payload : List (PyKey × PyValue))

structure World where
  store : OrchestrationStateStore
  disk : Disk

def World.restart (world : World) : Except StoreError World :=
  let loaded := load runtime world.store.path world.store.onCorruption world.disk
  loaded.1.map fun state => { store := { world.store with state }, disk := loaded.2 }

def World.next (world : World) : Event → Except StoreError World
  | .write name payload =>
    match world.store.writeNamespace runtime name payload world.disk with
    | (.error _, disk) => .ok { world with disk }
    | (.ok store, disk) => .ok { store, disk }
  | .read _ => .ok world
  | .reload => world.restart runtime
  | .cutOff name payload steps =>
    match world.store.assigned runtime name payload with
    | .error _ => world.restart runtime
    | .ok store =>
      World.restart runtime
        { store, disk := runSteps world.disk ((store.writeSteps runtime).take steps) }
  | .cutOffAfter name payload =>
    match world.store.writeNamespace runtime name payload world.disk with
    | (.error _, disk) => World.restart runtime { world with disk }
    | (.ok store, disk) => World.restart runtime { store, disk }

def World.run (world : World) : List Event → Except StoreError World
  | [] => .ok world
  | event :: events => do (← world.next runtime event).run events

end Store

end Agent33.Services

/-!
## The orchestration state store is a durable map

In memory and on the disk a store has the same namespaces, up to the order of keys:
every value is normal, so that its text gives it back. The steps of a write touch
the temporary file alone until it replaces the file of the store.
-/

namespace Agent33.Services

open Library JsonText

section Map

variable (runtime : Runtime)

def normalisedPayload (payload : List (PyKey × PyValue)) : Option JsonValue :=
  (encode runtime.floats (.dict payload)).map normalise

/-- The map after an event: a write counts when it is complete, or at least its replacement. -/
def Event.apply (values : Text → JsonValue) : Event → Text → JsonValue
  | .write name payload =>
    match normalisedPayload runtime payload with
    | some value => Function.update values name value
    | none => values
  | .cutOffAfter name payload =>
    match normalisedPayload runtime payload with
    | some value => Function.update values name value
    | none => values
  | .read _ => values
  | .reload => values
  | .cutOff _ _ _ => values

def lastWritten (initial : Text → JsonValue) (events : List Event) : Text → JsonValue :=
  events.foldl (Event.apply runtime) initial

end Map

def Namespaces.value (state : Namespaces) (name : Text) : JsonValue :=
  (state.get? (strOf name)).getD (.obj [])

theorem runSteps_append (disk : Disk) (steps steps' : List DiskStep) :
    runSteps disk (steps ++ steps') = runSteps (runSteps disk steps) steps' :=
  List.foldl_append

section Steps

variable (runtime : Runtime) (store : OrchestrationStateStore)

theorem path_ne_tmpPath : store.path ≠ store.tmpPath := by
  intro h
  have hlength := congrArg List.length h
  simp only [OrchestrationStateStore.tmpPath, withSuffix, List.length_append,
    List.length_take] at hlength
  have htmp : ".tmp".toList.length = 4 := rfl
  omega

open DiskStep

theorem get?_create (disk : Disk) (h : other ≠ path) :
    (run disk (.create path)).get? other = disk.get? other := by
  rw [run, Dict.get?_set, if_neg h]

theorem get?_append (disk : Disk) (h : other ≠ path) (c : Char) :
    (run disk (.append path c)).get? other = disk.get? other := by
  rw [run]
  split
  · rw [Dict.get?_set, if_neg h]
  · rfl

theorem get?_writeSteps (disk : Disk) (steps : ℕ) :
    (runSteps disk ((store.writeSteps runtime).take steps)).get? store.path =
      disk.get? store.path := by
  have happends : ∀ (text : Text) (disk : Disk) (steps : ℕ),
      (runSteps disk ((text.map (append store.tmpPath)).take steps)).get? store.path =
        disk.get? store.path := by
    intro text
    induction text with
    | nil =>
      intro disk steps
      rw [List.map_nil, List.take_nil]
      rfl
    | cons c text ih =>
      intro disk steps
      cases steps with
      | zero => rfl
      | succ steps =>
        rw [List.map_cons, List.take_succ_cons]
        exact (ih _ steps).trans (get?_append disk (path_ne_tmpPath store) c)
  cases steps with
  | zero => rfl
  | succ steps =>
    rw [OrchestrationStateStore.writeSteps, List.take_succ_cons]
    exact (happends _ _ steps).trans (get?_create disk (path_ne_tmpPath store))

theorem get?_appends (text : Text) (h : disk.get? path = some (.text content)) :
    (runSteps disk (text.map (.append path))).get? path = some (.text (content ++ text)) := by
  induction text generalizing disk content with
  | nil =>
    rw [List.append_nil]
    exact h
  | cons c text ih =>
    have hstep : (run disk (.append path c)).get? path =
        some (.text (content ++ [c])) := by
      rw [run, h]
      dsimp only
      rw [Dict.get?_set, if_pos rfl]
    have hrest := ih hstep
    rw [List.append_assoc] at hrest
    exact hrest

theorem get?_persistSteps (disk : Disk) :
    (runSteps disk (store.persistSteps runtime)).get? store.path =
      some (.text (store.stateText runtime)) := by
  have hcreated : (run disk (.create store.tmpPath)).get? store.tmpPath =
      some (.text []) := by
    rw [run, Dict.get?_set, if_pos rfl]
  have hwritten := get?_appends (store.stateText runtime) hcreated
  rw [OrchestrationStateStore.persistSteps, runSteps_append]
  change (run (runSteps disk (store.writeSteps runtime)) (.replace _ _)).get? _ = _
  have hsteps : (runSteps disk (store.writeSteps runtime)).get? store.tmpPath =
      some (.text ([] ++ store.stateText runtime)) := hwritten
  rw [run, hsteps]
  dsimp only
  rw [Dict.get?_set, if_pos rfl, List.nil_append]

theorem get?_cutOff (disk : Disk) (steps : ℕ) :
    (runSteps disk ((store.persistSteps runtime).take steps)).get? store.path =
        disk.get? store.path ∨
      (runSteps disk ((store.persistSteps runtime).take steps)).get? store.path =
        some (.text (store.stateText runtime)) := by
  by_cases hsteps : steps ≤ (store.writeSteps runtime).length
  · rw [OrchestrationStateStore.persistSteps, List.take_append_of_le_length hsteps]
    exact .inl (get?_writeSteps runtime store disk steps)
  · rw [List.take_of_length_le]
    · exact .inr (get?_persistSteps runtime store disk)
    · rw [OrchestrationStateStore.persistSteps, List.length_append, List.length_singleton]
      omega

end Steps

def WellFormed (state : Namespaces) : Prop :=
  ∀ entry ∈ state.entries, merge entry.1 = entry.1 ∧ Normal entry.2 ∧ isObj entry.2 = true

def fileState (runtime : Runtime) (file : Option File) : Except StoreError (Option Namespaces) :=
  match file with
  | none => .ok (some Dict.empty)
  | some file => readState runtime file

section Contents

theorem load_of_fileState (h : fileState runtime (disk.get? path) = .ok (some state)) :
    load runtime path onCorruption disk = (.ok state, disk) := by
  rw [load]
  cases hfile : disk.get? path with
  | none =>
    rw [hfile] at h
    cases h
    rfl
  | some file =>
    rw [hfile] at h
    change readState runtime file = _ at h
    dsimp only
    rw [h]

theorem corruptCandidate_ne (suffix : ℕ) : corruptCandidate path suffix ≠ path := by
  have hcorrupt : ".corrupt".toList.length = 8 ∧ ".corrupt.".toList.length = 9 := ⟨rfl, rfl⟩
  intro h
  have hlength := congrArg List.length h
  cases suffix <;> simp only [corruptCandidate, List.length_append] at hlength <;> omega

theorem freeCandidate_ne : freeCandidate disk path ≠ path := by
  rw [freeCandidate]
  cases hfind : ((List.range (disk.entries.length + 1)).map (corruptCandidate path)).find?
      fun candidate => (disk.get? candidate).isNone with
  | none => exact corruptCandidate_ne 0
  | some candidate =>
    obtain ⟨suffix, -, rfl⟩ := List.mem_map.mp (List.mem_of_find?_eq_some hfind)
    exact corruptCandidate_ne suffix

theorem wellFormed_empty : WellFormed Dict.empty := nofun

theorem wellFormed_validNamespaces (h : Normal (.obj fields)) :
    WellFormed (validNamespaces fields) := by
  rintro ⟨key, value⟩ hmem
  have hentry := Dict.mem_of_get?_ofList ((Dict.mem_entries _ _ _).mp hmem)
  obtain ⟨hfield, hobj⟩ := List.mem_filter.mp hentry
  obtain ⟨hkey, hvalue⟩ := normalFields_iff.mp h.2 _ hfield
  exact ⟨hkey, hvalue, hobj⟩

theorem readState_wellFormed (hfloats : runtime.floats.Lawful)
    (h : readState runtime file = .ok (some state)) : WellFormed state := by
  cases file with
  | binary => cases h
  | text content =>
    rw [readState] at h
    split_ifs at h
    · cases h
      exact wellFormed_empty
    · split at h
      · rename_i fields hloads
        cases h
        exact wellFormed_validNamespaces (loads_normal hfloats hloads)
      · cases h
      · cases h
      · cases h

theorem fileState_of_load (h : load runtime path onCorruption disk = (.ok state, disk')) :
    fileState runtime (disk'.get? path) = .ok (some state) := by
  rw [load] at h
  cases hfile : disk.get? path with
  | none =>
    rw [hfile] at h
    cases h
    rw [hfile]
    rfl
  | some file =>
    rw [hfile] at h
    dsimp only at h
    cases hread : readState runtime file with
    | error e =>
      rw [hread] at h
      cases h
    | ok found =>
      rw [hread] at h
      cases found with
      | some found =>
        cases h
        rw [hfile]
        exact hread
      | none =>
        dsimp only at h
        rw [handleCorruption, hfile] at h
        split_ifs at h
        · cases h
        · cases h
          rw [Dict.get?_set, if_neg freeCandidate_ne.symm, Dict.get?_erase, if_pos rfl]
          rfl

theorem fileState_wellFormed (hfloats : runtime.floats.Lawful)
    (h : fileState runtime file = .ok (some state)) : WellFormed state := by
  cases file with
  | none =>
    cases h
    exact wellFormed_empty
  | some file => exact readState_wellFormed hfloats h

end Contents

section RoundTrip

theorem deepCopy_spec (hfloats : runtime.floats.Lawful) (value : JsonValue) :
    deepCopy runtime value = .ok (normalise value) := by
  rw [deepCopy, loadsText, loads_print compact hfloats]

theorem isObj_normalise (value : JsonValue) : isObj (normalise value) = isObj value := by
  cases value <;> rfl

theorem isObj_sortKeys (value : JsonValue) : isObj (sortKeys value) = isObj value := by
  cases value <;> rfl

theorem isObj_of_encode (h : encode floats (.dict payload) = some value) : isObj value = true := by
  obtain ⟨fields, -, rfl⟩ := Option.map_eq_some_iff.mp h
  rfl

theorem get?_validNamespaces_sorted (hstate : WellFormed state) (key : Str) :
    (validNamespaces ((sortKeysFields state.entries).insertionSort fun a b => a.1 ≤ b.1)).get? key =
      (state.get? key).map sortKeys := by
  have hall : ((sortKeysFields state.entries).insertionSort fun a b => a.1 ≤ b.1).filter
      (fun field => isObj field.2) =
        (sortKeysFields state.entries).insertionSort fun a b => a.1 ≤ b.1 := by
    refine List.filter_eq_self.mpr fun field hfield => ?_
    obtain ⟨value, hmem, hvalue⟩ := mem_sortedFields.mp hfield
    rw [hvalue, isObj_sortKeys]
    exact (hstate _ hmem).2.2
  refine Option.ext fun value => ?_
  rw [validNamespaces, hall]
  refine (Dict.get?_ofList (nodup_sortedFields state.nodup) key value).trans ?_
  rw [mem_sortedFields, Option.map_eq_some_iff]
  constructor
  · rintro ⟨value', hmem, rfl⟩
    exact ⟨value', (Dict.mem_entries _ _ _).mp hmem, rfl⟩
  · rintro ⟨value', hget, rfl⟩
    exact ⟨value', (Dict.mem_entries _ _ _).mpr hget, rfl⟩

theorem strip_ne_nil (hc : Text.isSpace c = false) (text : Text) : Text.strip (c :: text) ≠ [] := by
  have hcons : Text.lstrip (c :: text) = c :: text :=
    List.dropWhile_cons_of_neg (by simp [hc])
  rw [Text.strip, hcons]
  intro h
  have hspaces := List.dropWhile_eq_nil_iff.mp (List.reverse_eq_nil_iff.mp h) c
    (List.mem_reverse.mpr List.mem_cons_self)
  rw [hc] at hspaces
  cases hspaces

theorem readState_stateText (hfloats : runtime.floats.Lawful) {store : OrchestrationStateStore}
    (hstate : WellFormed store.state) :
    readState runtime (.text (store.stateText runtime)) =
      .ok (some (validNamespaces
        ((sortKeysFields store.state.entries).insertionSort fun a b => a.1 ≤ b.1))) := by
  have hnormal : Normal (.obj store.state.entries) :=
    ⟨store.state.nodup, normalFields_iff.mpr fun field hfield =>
      ⟨(hstate field hfield).1, (hstate field hfield).2.1⟩⟩
  have hloads := loads_print (indented 2) hfloats (sortKeys (.obj store.state.entries))
  rw [normalise_of_normal (normal_sortKeys hnormal)] at hloads
  have hstrip : Text.strip (store.stateText runtime) ≠ [] := by
    rw [OrchestrationStateStore.stateText, sortKeys, print]
    split_ifs
    · exact strip_ne_nil rfl _
    · exact strip_ne_nil rfl _
  rw [readState, if_neg hstrip, OrchestrationStateStore.stateText, hloads]
  rfl

end RoundTrip

def InFile (runtime : Runtime) (world : World) (values : Text → JsonValue) : Prop :=
  ∃ state : Namespaces,
    fileState runtime (world.disk.get? world.store.path) = .ok (some state) ∧
      ∀ name, Same (state.value name) (values name)

structure Holds (runtime : Runtime) (world : World) (values : Text → JsonValue) : Prop where
  wellFormed : WellFormed world.store.state
  memory : ∀ name, Same (world.store.state.value name) (values name)
  file : InFile runtime world values

section Runs

theorem InFile.restart (hfloats : runtime.floats.Lawful) (h : InFile runtime world values) :
    ∃ world', world.restart runtime = .ok world' ∧ Holds runtime world' values := by
  obtain ⟨state, hfile, hvalues⟩ := h
  refine ⟨{ store := { world.store with state }, disk := world.disk }, ?_, ?_⟩
  · rw [World.restart, load_of_fileState hfile]
    rfl
  · exact ⟨fileState_wellFormed hfloats hfile, hvalues, state, hfile, hvalues⟩

theorem exists_of_map {ε α β : Type} {x : Except ε α} {f : α → β} {b : β}
    (h : x.map f = .ok b) : ∃ a, x = .ok a ∧ f a = b := by
  cases x with
  | error e => cases h
  | ok a => exact ⟨a, rfl, Except.ok.inj h⟩

theorem deepCopyPayload_spec (hfloats : runtime.floats.Lawful)
    (payload : List (PyKey × PyValue)) :
    match normalisedPayload runtime payload with
    | some value =>
      deepCopyPayload runtime payload = .ok value ∧ Normal value ∧ isObj value = true
    | none => deepCopyPayload runtime payload = .error .unserializable := by
  rw [normalisedPayload, deepCopyPayload]
  cases hencode : encode runtime.floats (.dict payload) with
  | none => rfl
  | some value =>
    refine ⟨deepCopy_spec hfloats value, normal_normalise value, ?_⟩
    rw [isObj_normalise]
    exact isObj_of_encode hencode

theorem Holds.assigned (h : Holds runtime world values) (name : Text)
    (hnormal : Normal value) (hobj : isObj value = true) :
    WellFormed (world.store.state.set (strOf name) value) ∧
      ∀ other, Same (Namespaces.value (world.store.state.set (strOf name) value) other)
        (Function.update values name value other) := by
  constructor
  · rintro ⟨key, other⟩ hmem
    have hget := (Dict.mem_entries _ _ _).mp hmem
    rw [Dict.get?_set] at hget
    split_ifs at hget with hkey
    · cases hget
      rw [hkey]
      exact ⟨merge_strOf name, hnormal, hobj⟩
    · exact h.wellFormed _ ((Dict.mem_entries _ _ _).mpr hget)
  · intro other
    rw [Namespaces.value, Dict.get?_set]
    by_cases hname : other = name
    · rw [hname, if_pos rfl, Function.update_self]
      rfl
    · rw [if_neg fun heq => hname (strOf_injective heq), Function.update_of_ne hname]
      exact h.memory other

theorem fileState_persisted (hfloats : runtime.floats.Lawful) (store : OrchestrationStateStore)
    (hstate : WellFormed store.state) (disk : Disk) :
    ∃ state : Namespaces,
      fileState runtime ((runSteps disk (store.persistSteps runtime)).get? store.path) =
          .ok (some state) ∧
        ∀ name, Same (state.value name) (store.state.value name) := by
  refine ⟨validNamespaces
    ((sortKeysFields store.state.entries).insertionSort fun a b => a.1 ≤ b.1), ?_, fun name => ?_⟩
  · rw [get?_persistSteps]
    exact readState_stateText hfloats hstate
  · rw [Namespaces.value, Namespaces.value, get?_validNamespaces_sorted hstate]
    cases store.state.get? (strOf name) with
    | none => rfl
    | some value => exact sortKeys_sortKeys value

section

variable (hfloats : runtime.floats.Lawful) (h : Holds runtime world values)
include hfloats h

theorem Holds.written {name : Text} (hnormal : Normal value) (hobj : isObj value = true) :
    let store := { world.store with state := world.store.state.set (strOf name) value }
    Holds runtime { store, disk := runSteps world.disk (store.persistSteps runtime) }
      (Function.update values name value) := by
  intro store
  obtain ⟨hwellFormed, hmemory⟩ := h.assigned name hnormal hobj
  obtain ⟨state, hfile, hstate⟩ :=
    fileState_persisted hfloats store hwellFormed world.disk
  exact ⟨hwellFormed, hmemory, state, hfile, fun other => (hstate other).trans (hmemory other)⟩

theorem Holds.next (event : Event) :
    ∃ world', world.next runtime event = .ok world' ∧
      Holds runtime world' (event.apply runtime values) := by
  cases event with
  | read name => exact ⟨world, rfl, h⟩
  | reload => exact h.file.restart hfloats
  | write name payload =>
    have hpayload := deepCopyPayload_spec hfloats payload
    simp only [World.next, OrchestrationStateStore.writeNamespace,
      OrchestrationStateStore.assigned, Event.apply]
    cases hvalue : normalisedPayload runtime payload with
    | none =>
      rw [hvalue] at hpayload
      dsimp only at hpayload
      rw [hpayload]
      exact ⟨world, rfl, h⟩
    | some value =>
      rw [hvalue] at hpayload
      obtain ⟨hcopy, hnormal, hobj⟩ := hpayload
      rw [hcopy]
      exact ⟨_, rfl, h.written hfloats hnormal hobj⟩
  | cutOffAfter name payload =>
    have hpayload := deepCopyPayload_spec hfloats payload
    simp only [World.next, OrchestrationStateStore.writeNamespace,
      OrchestrationStateStore.assigned, Event.apply]
    cases hvalue : normalisedPayload runtime payload with
    | none =>
      rw [hvalue] at hpayload
      dsimp only at hpayload
      rw [hpayload]
      exact h.file.restart hfloats
    | some value =>
      rw [hvalue] at hpayload
      obtain ⟨hcopy, hnormal, hobj⟩ := hpayload
      rw [hcopy]
      exact (h.written hfloats hnormal hobj).file.restart hfloats
  | cutOff name payload steps =>
    simp only [World.next]
    cases hstore : world.store.assigned runtime name payload with
    | error e => exact h.file.restart hfloats
    | ok store =>
      obtain ⟨value, -, rfl⟩ := exists_of_map hstore
      refine InFile.restart hfloats ?_
      obtain ⟨state, hfile, hvalues⟩ := h.file
      refine ⟨state, ?_, hvalues⟩
      rw [← hfile]
      exact congrArg (fileState runtime) (get?_writeSteps runtime _ world.disk steps)

theorem Holds.run (events : List Event) :
    ∃ world', world.run runtime events = .ok world' ∧
      Holds runtime world' (lastWritten runtime values events) := by
  induction events generalizing world values with
  | nil => exact ⟨world, rfl, h⟩
  | cons event events ih =>
    obtain ⟨next, hnext, h⟩ := h.next hfloats event
    obtain ⟨world', hrun, h⟩ := ih h
    refine ⟨world', ?_, h⟩
    rw [World.run, hnext]
    exact hrun

theorem Holds.read (name : Text) :
    ∃ value, world.store.readNamespace runtime name = .ok value ∧ Same value (values name) := by
  have hvalue : Normal (world.store.state.value name) ∧
      isObj (world.store.state.value name) = true := by
    rw [Namespaces.value]
    cases hget : world.store.state.get? (strOf name) with
    | none => exact ⟨⟨List.nodup_nil, trivial⟩, rfl⟩
    | some value => exact (h.wellFormed _ ((Dict.mem_entries _ _ _).mpr hget)).2
  refine ⟨world.store.state.value name, ?_, h.memory name⟩
  change (if isObj (world.store.state.value name) then _ else _) = _
  rw [if_pos hvalue.2]
  change deepCopy runtime (world.store.state.value name) = _
  rw [deepCopy_spec hfloats, normalise_of_normal hvalue.1]

end

end Runs

theorem Holds.start (hfloats : runtime.floats.Lawful)
    (hcreate : OrchestrationStateStore.create runtime path onCorruption disk = (.ok store, disk')) :
    Holds runtime { store, disk := disk' } store.state.value := by
  rw [OrchestrationStateStore.create] at hcreate
  obtain ⟨hstore, hdisk⟩ := Prod.mk.inj hcreate
  obtain ⟨state, hload, rfl⟩ := exists_of_map hstore
  have hfile := fileState_of_load (Prod.ext hload hdisk)
  exact ⟨fileState_wellFormed hfloats hfile, fun _ => rfl, state, hfile, fun _ => rfl⟩

/-- In every run, with cut off writes and restarts, the namespaces are those last written, and a
write that is cut off leaves the old file or the new one. -/
theorem durable_map {runtime : Runtime} (hfloats : runtime.floats.Lawful) {path : Path}
    {onCorruption : Text} {disk disk' : Disk} {store : OrchestrationStateStore}
    (hcreate : OrchestrationStateStore.create runtime path onCorruption disk = (.ok store, disk'))
    (events : List Event) :
    ∃ world, World.run runtime { store, disk := disk' } events = .ok world ∧
      (∀ name, ∃ value, world.store.readNamespace runtime name = .ok value ∧
        Same value (lastWritten runtime store.state.value events name)) ∧
      ∀ name payload next steps, world.store.assigned runtime name payload = .ok next →
        let cut := runSteps world.disk ((next.persistSteps runtime).take steps)
        cut.get? world.store.path = world.disk.get? world.store.path ∨
          cut.get? world.store.path = some (.text (next.stateText runtime)) := by
  obtain ⟨world, hrun, h⟩ := (Holds.start hfloats hcreate).run hfloats events
  refine ⟨world, hrun, h.read hfloats, fun name payload next steps hnext => ?_⟩
  obtain ⟨value, -, rfl⟩ := exists_of_map hnext
  exact get?_cutOff runtime _ world.disk steps

def plainRuntime : Runtime := { python := asciiPython [], floats := plainFloats }

/-- A namespace is written, another write of it is cut off, and the store is loaded again. -/
theorem durable_map_release :
    ∃ world, World.run plainRuntime
        { store := { path := "state.json".toList, onCorruption := "reset".toList,
                     state := Dict.empty },
          disk := Dict.empty }
        [.write "release".toList [(.str (strOf "ready".toList), .float 0x3ff8000000000000#64)],
          .cutOff "release".toList [] 5, .reload] = .ok world ∧
      ∃ value, world.store.readNamespace plainRuntime "release".toList = .ok value ∧
        Same value (.obj [(strOf "ready".toList, .float 0x3ff8000000000000#64)]) := by
  have hcreate : OrchestrationStateStore.create plainRuntime "state.json".toList "reset".toList
      Dict.empty =
      (.ok ⟨"state.json".toList, "reset".toList, Dict.empty⟩, Dict.empty) := rfl
  obtain ⟨world, hrun, hread, -⟩ := durable_map plainFloats_lawful hcreate
    [.write "release".toList [(.str (strOf "ready".toList), .float 0x3ff8000000000000#64)],
      .cutOff "release".toList [] 5, .reload]
  obtain ⟨value, hvalue, hsame⟩ := hread "release".toList
  exact ⟨world, hrun, value, hvalue, hsame⟩

end Agent33.Services
