import Agent33.Library.DirTree
import Agent33.Library.Text
import Mathlib.Data.Char

/-!
# Backup archives

The members of an archive in their order, and the digests of assets: of a directory that is on
the disk, and of one that is in an archive. An archive with the manifest is written from a
staging directory.
-/

namespace Agent33.Backup

open Library

abbrev Bytes := List UInt8

abbrev Parts := List Text

abbrev Tree := DirTree Text Bytes

def utf8 (text : Text) : Bytes := text.flatMap String.utf8EncodeChar

def asPosix (parts : Parts) : Text :=
  if parts = [] then ['.'] else ['/'].intercalate parts

def partsOf (name : Text) : Parts :=
  (name.splitOn '/').filter fun part => part ≠ [] ∧ part ≠ ['.']

def isAbsolute (name : Text) : Bool := name.head? == some '/'

def isSafeArchiveMember (name : Text) : Bool :=
  !isAbsolute name && (partsOf name).all fun part =>
    part ∉ [[], ['.'], ['.', '.']]

def manifestFilename : Text := "manifest.json".toList

/-- What a member holds; `other` has what reading it gives, if anything. -/
inductive Payload
  | dir
  | file (content : Bytes)
  | other (resolved : Option Bytes)

structure TarInfo where
  name : Text
  payload : Payload

def TarInfo.file? (member : TarInfo) : Option Bytes :=
  match member.payload with
  | .file content => some content
  | _ => none

def extractfile (member : TarInfo) : Option Bytes :=
  match member.payload with
  | .dir => none
  | .file content => some content
  | .other resolved => resolved

def getmember (members : List TarInfo) (name : Text) : Option TarInfo :=
  members.reverse.find? fun member => member.name = name

inductive ArchiveFile
  | missing
  | unreadable (error : Text)
  | tar (members : List TarInfo)

def payloadOf (node : TreeNode Bytes) : Payload :=
  match node with
  | .dir => .dir
  | .file content => .file content

/-- The tree is walked from its root, the entries of each directory in the order of their
names, which is the order of the paths. -/
def writeTarGz (root : Text) (staging : Tree) : List TarInfo :=
  (staging.paths.mergeSort (· ≤ ·)).filterMap fun path =>
    (staging.node path).map fun node => ⟨asPosix (root :: path), payloadOf node⟩

structure BackupAsset where
  relativePath : Text
  assetType : Text
  sizeBytes : ℕ := 0
  checksum : Text := []
  included : Bool := true
  exclusionReason : Text := []
  isDirectory : Bool := false
  sourcePath : Parts := []

structure BackupManifest where
  schemaVersion : Text := "1.0".toList
  backupId : Text
  runtimeVersion : Text
  assets : List BackupAsset

def BackupManifest.written (manifest : BackupManifest) : BackupManifest :=
  { manifest with assets := manifest.assets.map fun asset => { asset with sourcePath := [] } }

def filesOf (t : Tree) (paths : List Parts) : List (Parts × Bytes) :=
  paths.filterMap fun path => (t.file? path).map fun content => (path, content)

def sortedFiles (t : Tree) : List (Parts × Bytes) :=
  filesOf t ((t.paths.filter (· ≠ [])).mergeSort (· ≤ ·))

def computeSize (t : Tree) : ℕ :=
  match t.file? [] with
  | some content => content.length
  | none => ((sortedFiles t).map fun entry => entry.2.length).sum

section Digest

variable (sha256 : Bytes → Text)

def digestEntry (entry : Text × Bytes) : Bytes :=
  utf8 entry.1 ++ [0] ++ utf8 (sha256 entry.2) ++ [0]

def digestEntries (entries : List (Text × Bytes)) : Text :=
  sha256 (entries.flatMap (digestEntry sha256))

def computeChecksum (t : Tree) : Text :=
  match t.file? [] with
  | some content => sha256 content
  | none => digestEntries sha256 ((sortedFiles t).map fun entry => (asPosix entry.1, entry.2))

def stripArchiveRoot (name archiveRoot : Text) : Parts :=
  match partsOf name with
  | [] => []
  | part :: rest => if part = archiveRoot then rest else []

def matchingAssetMembers (members : List TarInfo) (archiveRoot relativePath : Text) :
    List TarInfo :=
  members.filter fun member =>
    let normalized := stripArchiveRoot member.name archiveRoot
    normalized ≠ [] ∧ partsOf relativePath <+: normalized

def missingFileMember (asset : BackupAsset) : Text :=
  "Missing file member for asset: ".toList ++ asset.relativePath

def archiveEntry (archiveRoot : Text) (asset : BackupAsset) (member : TarInfo) :
    Option (Text × Bytes) :=
  member.file?.map fun content =>
    (asPosix ((stripArchiveRoot member.name archiveRoot).drop
      (partsOf asset.relativePath).length), content)

def computeArchiveChecksum (members : List TarInfo) (archiveRoot : Text) (asset : BackupAsset) :
    Except Text Text :=
  let members := matchingAssetMembers members archiveRoot asset.relativePath
  if asset.isDirectory then
    let files := (members.filter fun member => member.file?.isSome).mergeSort
      fun member member' => member.name ≤ member'.name
    .ok (digestEntries sha256 (files.filterMap (archiveEntry archiveRoot asset)))
  else
    match members.findSome? TarInfo.file? with
    | none => .error (missingFileMember asset)
    | some content => .ok (sha256 content)

end Digest

end Agent33.Backup

/-!
## Names in backups

Paths are written out and read back, and the entries of a digest can be told apart: neither a
name nor a digest has a zero byte in it.
-/

namespace Agent33.Backup

open Library

structure IsName (name : Text) : Prop where
  ne_nil : name ≠ []
  slash : '/' ∉ name
  zero : '\x00' ∉ name
  dot : name ≠ ['.']
  dots : name ≠ ['.', '.']

instance (name : Text) : Decidable (IsName name) :=
  decidable_of_iff (name ≠ [] ∧ '/' ∉ name ∧ '\x00' ∉ name ∧ name ≠ ['.'] ∧ name ≠ ['.', '.'])
    ⟨fun ⟨h₁, h₂, h₃, h₄, h₅⟩ => ⟨h₁, h₂, h₃, h₄, h₅⟩,
      fun ⟨h₁, h₂, h₃, h₄, h₅⟩ => ⟨h₁, h₂, h₃, h₄, h₅⟩⟩

def Named (parts : Parts) : Prop := ∀ name ∈ parts, IsName name

instance (parts : Parts) : Decidable (Named parts) :=
  inferInstanceAs (Decidable (∀ name ∈ parts, IsName name))

theorem Named.append (hp : Named p) (hq : Named q) : Named (p ++ q) := by
  intro name h
  rcases List.mem_append.mp h with h | h
  · exact hp name h
  · exact hq name h

theorem Named.left (h : Named (p ++ q)) : Named p :=
  fun name hname => h name (List.mem_append_left _ hname)

theorem Named.right (h : Named (p ++ q)) : Named q :=
  fun name hname => h name (List.mem_append_right _ hname)

theorem asPosix_of_ne_nil (h : p ≠ []) : asPosix p = ['/'].intercalate p := if_neg h

theorem asPosix_singleton (name : Text) : asPosix [name] = name := by
  simp [asPosix]

theorem partsOf_asPosix (h : Named p) : partsOf (asPosix p) = p := by
  cases p with
  | nil => rfl
  | cons name p =>
    rw [asPosix_of_ne_nil (List.cons_ne_nil name p), partsOf,
      List.splitOn_intercalate '/' (fun part hpart => (h part hpart).slash)
        (List.cons_ne_nil name p)]
    apply List.filter_eq_self.mpr
    intro part hpart
    exact decide_eq_true ⟨(h part hpart).ne_nil, (h part hpart).dot⟩

theorem asPosix_inj (hp : Named p) (hq : Named q) (h : asPosix p = asPosix q) : p = q := by
  rw [← partsOf_asPosix hp, h, partsOf_asPosix hq]

theorem asPosix_append (hp : p ≠ []) (hq : q ≠ []) :
    asPosix (p ++ q) = asPosix p ++ '/' :: asPosix q := by
  rw [asPosix_of_ne_nil hp, asPosix_of_ne_nil hq, asPosix_of_ne_nil (by simp [hp])]
  induction p with
  | nil => exact absurd rfl hp
  | cons name p ih =>
    cases p with
    | nil =>
      cases q with
      | nil => exact absurd rfl hq
      | cons name' q => simp [List.intercalate]
    | cons name' p =>
      have hrest := ih (List.cons_ne_nil name' p)
      rw [List.cons_append] at hrest
      simp only [List.cons_append, List.intercalate_cons_cons, hrest, List.append_assoc]

theorem isSafeArchiveMember_asPosix (h : Named p) : isSafeArchiveMember (asPosix p) = true := by
  rw [isSafeArchiveMember, partsOf_asPosix h, Bool.and_eq_true, List.all_eq_true]
  constructor
  · cases p with
    | nil => rfl
    | cons name p =>
      have hname := h name List.mem_cons_self
      obtain ⟨c, rest, rfl⟩ := List.exists_cons_of_ne_nil hname.ne_nil
      have hc : c ≠ '/' := fun heq => hname.slash (heq ▸ List.mem_cons_self)
      cases p <;> simp [isAbsolute, asPosix, hc]
  · intro part hpart
    have hname := h part hpart
    simp [hname.ne_nil, hname.dot, hname.dots]

theorem zero_notMem_asPosix (h : Named p) : '\x00' ∉ asPosix p := by
  induction p with
  | nil => decide
  | cons name p ih =>
    have hname := h name List.mem_cons_self
    by_cases hp : p = []
    · rw [hp]
      simpa [asPosix] using hname.zero
    · have hsplit := asPosix_append (List.cons_ne_nil name []) hp
      rw [List.singleton_append] at hsplit
      have hrest := ih fun part hpart => h part (List.mem_cons_of_mem _ hpart)
      rw [hsplit]
      simp [asPosix_of_ne_nil (List.cons_ne_nil name []), hname.zero, hrest]

theorem utf8_injective : Function.Injective utf8 := by
  intro text text' h
  have hencoded : text.utf8Encode = text'.utf8Encode := by
    rw [List.utf8Encode, List.utf8Encode]
    exact congrArg List.toByteArray h
  have hdecoded := congrArg ByteArray.utf8Decode? hencoded
  rw [List.utf8Decode?_utf8Encode, List.utf8Decode?_utf8Encode, Option.some.injEq] at hdecoded
  exact List.toArray_inj hdecoded

theorem zero_notMem_utf8EncodeChar (h : c ≠ '\x00') : 0 ∉ String.utf8EncodeChar c := by
  have hv : c.val.toNat ≠ 0 := by
    intro hzero
    exact h (Char.ext (UInt32.toNat_inj.mp hzero))
  unfold String.utf8EncodeChar
  dsimp only
  generalize c.val.toNat = v at hv
  split_ifs <;> simp [← UInt8.toNat_inj] <;> omega

theorem zero_notMem_utf8 (h : '\x00' ∉ text) : 0 ∉ utf8 text := by
  intro hzero
  obtain ⟨c, hc, hzero⟩ := List.mem_flatMap.mp hzero
  apply zero_notMem_utf8EncodeChar _ hzero
  rintro rfl
  exact h hc

theorem append_zero_inj {a b x y : Bytes} (ha : 0 ∉ a) (hb : 0 ∉ b)
    (h : a ++ 0 :: x = b ++ 0 :: y) : a = b ∧ x = y := by
  induction a generalizing b with
  | nil =>
    cases b with
    | nil => exact ⟨rfl, (List.cons.inj h).2⟩
    | cons byte b => exact absurd (List.cons.inj h).1 fun heq => hb (heq ▸ List.mem_cons_self)
  | cons byte a ih =>
    cases b with
    | nil => exact absurd (List.cons.inj h).1 fun heq => ha (heq ▸ List.mem_cons_self)
    | cons byte' b =>
      obtain ⟨rfl, hrest⟩ := List.cons.inj h
      obtain ⟨rfl, hxy⟩ := ih (fun hmem => ha (List.mem_cons_of_mem _ hmem))
        (fun hmem => hb (List.mem_cons_of_mem _ hmem)) hrest
      exact ⟨rfl, hxy⟩

section Digest

variable {sha256 : Bytes → Text}

structure Digests (sha256 : Bytes → Text) : Prop where
  injective : Function.Injective sha256
  zero : ∀ bytes, '\x00' ∉ sha256 bytes

theorem digestEntries_inj (h : Digests sha256) (hentries : ∀ entry ∈ entries, '\x00' ∉ entry.1)
    (hentries' : ∀ entry ∈ entries', '\x00' ∉ entry.1)
    (heq : digestEntries sha256 entries = digestEntries sha256 entries') :
    entries = entries' := by
  have hstream := h.injective heq
  clear heq
  induction entries generalizing entries' with
  | nil =>
    cases entries' with
    | nil => rfl
    | cons entry' entries' => simp [digestEntry] at hstream
  | cons entry entries ih =>
    cases entries' with
    | nil => simp [digestEntry] at hstream
    | cons entry' entries' =>
      simp only [List.flatMap_cons, digestEntry, List.append_assoc, List.cons_append,
        List.nil_append] at hstream
      obtain ⟨hname, hstream⟩ := append_zero_inj
        (zero_notMem_utf8 (hentries entry List.mem_cons_self))
        (zero_notMem_utf8 (hentries' entry' List.mem_cons_self)) hstream
      obtain ⟨hdigest, hstream⟩ := append_zero_inj (zero_notMem_utf8 (h.zero entry.2))
        (zero_notMem_utf8 (h.zero entry'.2)) hstream
      have hentry : entry = entry' :=
        Prod.ext (utf8_injective hname) (h.injective (utf8_injective hdigest))
      have hrest := ih (fun e he => hentries e (List.mem_cons_of_mem _ he))
        (fun e he => hentries' e (List.mem_cons_of_mem _ he)) hstream
      rw [hentry, hrest]

end Digest

end Agent33.Backup
