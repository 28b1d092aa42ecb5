import Agent33.Library.Text

/-!
# File trees

A tree of directories and files under absolute paths. A path lists its
components from the last one to the first, so that its parent is its tail. The
parent of everything that exists is a directory, and the operations keep that.
A file holds the text that its bytes decode to, or bytes that do not decode.
-/

namespace Agent33.Library

open List

inductive Node
  | dir
  | file (content : Text)
  | blob (bytes : List ℕ)
  deriving DecidableEq

abbrev Path := List String

def Path.str (p : Path) : String := "/" ++ String.intercalate "/" p.reverse

inductive OsError
  | fileNotFound (path : Path)
  | fileExists (path : Path)
  | notADirectory (path : Path)
  | isADirectory (path : Path)
  | unicodeDecode (path : Path)
  deriving DecidableEq

@[ext]
structure FileTree where
  node : Path → Option Node
  node_root : node [] = some .dir
  node_parent : ∀ name p, node (name :: p) ≠ none → node p = some .dir

namespace FileTree

variable {t : FileTree} {p q : Path}

def empty : FileTree where
  node p := if p = [] then some .dir else none
  node_root := rfl
  node_parent name p h := by simp at h

def exists? (t : FileTree) (p : Path) : Bool := (t.node p).isSome

def isDir (t : FileTree) (p : Path) : Bool := t.node p == some .dir

/-- Replace what is at a path by something that keeps the tree closed: only what
is not a directory is replaced, and only inside a directory. -/
def replace (t : FileTree) (name : String) (p : Path) (n : Option Node)
    (hp : t.node p = some .dir) (hn : t.node (name :: p) ≠ some .dir) : FileTree where
  node := Function.update t.node (name :: p) n
  node_root := by
    rw [Function.update_of_ne (cons_ne_nil name p).symm]
    exact t.node_root
  node_parent := by
    intro name' q hq
    have hne : q ≠ name :: p := by
      rintro rfl
      have hself : name' :: name :: p ≠ name :: p := fun h => by
        simpa using congrArg List.length h
      rw [Function.update_of_ne hself] at hq
      exact hn (t.node_parent name' (name :: p) hq)
    rw [Function.update_of_ne hne]
    by_cases heq : name' :: q = name :: p
    · obtain ⟨_, rfl⟩ := cons.inj heq
      exact hp
    · rw [Function.update_of_ne heq] at hq
      exact t.node_parent name' q hq

theorem replace_node (name : String) (n : Option Node) (hp : t.node p = some .dir)
    (hn : t.node (name :: p) ≠ some .dir) (q : Path) :
    (t.replace name p n hp hn).node q = if q = name :: p then n else t.node q :=
  Function.update_apply ..

theorem cons_not_suffix (name : String) (p : Path) : ¬ name :: p <:+ p := by
  intro h
  have := h.length_le
  rw [length_cons] at this
  omega

/-- Make a directory and the missing ones above it; one that exists is fine. What
exists stays, and only the path and what is above it may change. -/
def mkdirParents : (p : Path) → (t : FileTree) → Except OsError {t' : FileTree //
    t'.node p = some .dir ∧ ∀ q, t.node q ≠ none ∨ ¬ q <:+ p → t'.node q = t.node q}
  | [], t => .ok ⟨t, t.node_root, fun _ _ => rfl⟩
  | name :: p, t =>
    match hn : t.node (name :: p) with
    | some .dir => .ok ⟨t, hn, fun _ _ => rfl⟩
    | some _ => .error (.fileExists (name :: p))
    | none =>
      match mkdirParents p t with
      | .error _ => .error (.notADirectory (name :: p))
      | .ok ⟨t', hdir, hkeep⟩ =>
        have hnew : t'.node (name :: p) ≠ some .dir := by
          rw [hkeep _ (.inr (cons_not_suffix name p)), hn]
          simp
        .ok ⟨t'.replace name p (some .dir) hdir hnew, by rw [replace_node, if_pos rfl], by
          intro q hq
          have hne : q ≠ name :: p := by
            rintro rfl
            exact hq.elim (fun h => h hn) (fun h => h suffix_rfl)
          rw [replace_node, if_neg hne]
          exact hkeep q (hq.imp_right fun h hs => h (hs.trans (suffix_cons name p)))⟩

def writeText (t : FileTree) (p : Path) (content : Text) : Except OsError FileTree :=
  match p with
  | [] => .error (.isADirectory [])
  | name :: p =>
    if hdir : t.node (name :: p) = some .dir then .error (.isADirectory (name :: p))
    else if hp : t.node p = some .dir then
      .ok (t.replace name p (some (.file content)) hp hdir)
    else if t.exists? p then .error (.notADirectory (name :: p))
    else .error (.fileNotFound (name :: p))

def unlink (t : FileTree) (p : Path) : Except OsError FileTree :=
  match p with
  | [] => .error (.isADirectory [])
  | name :: p =>
    if hdir : t.node (name :: p) = some .dir then .error (.isADirectory (name :: p))
    else if hn : t.node (name :: p) = none then .error (.fileNotFound (name :: p))
    else .ok (t.replace name p none (t.node_parent name p hn) hdir)

def readText (t : FileTree) (p : Path) : Except OsError Text :=
  match t.node p with
  | none => .error (.fileNotFound p)
  | some .dir => .error (.isADirectory p)
  | some (.blob _) => .error (.unicodeDecode p)
  | some (.file content) => .ok (Text.universalNewlines content)

variable {t' : FileTree}

theorem writeText_node (h : t.writeText p content = .ok t') (q : Path) :
    t'.node q = if q = p then some (.file content) else t.node q := by
  cases p with
  | nil => simp [writeText] at h
  | cons name p =>
    simp only [writeText] at h
    split_ifs at h
    obtain rfl := Except.ok.inj h
    exact replace_node ..

theorem unlink_node (h : t.unlink p = .ok t') (q : Path) :
    t'.node q = if q = p then none else t.node q := by
  cases p with
  | nil => simp [unlink] at h
  | cons name p =>
    simp only [unlink] at h
    split_ifs at h
    obtain rfl := Except.ok.inj h
    exact replace_node ..

def file? (t : FileTree) (p : Path) : Option Node := (t.node p).filter (· ≠ .dir)

theorem file?_congr (h : t.node p = t'.node p) : t.file? p = t'.file? p := by
  rw [file?, file?, h]

theorem node_of_suffix (hp : t.node p = some .dir) (hq : q <:+ p) : t.node q = some .dir := by
  induction p with
  | nil => rwa [suffix_nil.mp hq]
  | cons name p ih =>
    rcases suffix_cons_iff.mp hq with rfl | hq
    · exact hp
    · have hparent := t.node_parent name p (by simp [hp])
      exact ih hparent hq

theorem mkdirParents_file? {made : {t' : FileTree // t'.node p = some .dir ∧
    ∀ q, t.node q ≠ none ∨ ¬ q <:+ p → t'.node q = t.node q}} (q : Path) :
    made.1.file? q = t.file? q := by
  obtain ⟨t', hdir, hkeep⟩ := made
  by_cases hq : t.node q ≠ none ∨ ¬ q <:+ p
  · exact file?_congr (hkeep q hq)
  · push Not at hq
    have hnew : t'.node q = some .dir := node_of_suffix hdir hq.2
    simp [file?, hnew, hq.1]

theorem exists?_congr (h : t.node p = t'.node p) : t.exists? p = t'.exists? p := by
  rw [exists?, exists?, h]

theorem isDir_congr (h : t.node p = t'.node p) : t.isDir p = t'.isDir p := by
  rw [isDir, isDir, h]

theorem readText_congr (h : t.node p = t'.node p) : t.readText p = t'.readText p := by
  rw [readText, readText, h]

end FileTree

end Agent33.Library

/-!
## Walking a path

A path leads from the root, or from the current directory, through its components: a name leads to
what has it or to where its link leads, and two dots lead to the parent. What a walk arrives at is
a real place, which no link leads away from.
-/

namespace Agent33.Library.PathWalk

/-- The names that lead to a place from the root, last one first. -/
abbrev Place := List Text

def parentName : Text := ['.', '.']

structure IsName (name : Text) : Prop where
  ne_nil : name ≠ []
  ne_dot : name ≠ ['.']
  ne_parent : name ≠ parentName

def Real (enter : Place → Text → Place) : Place → Prop
  | [] => True
  | name :: dir => IsName name ∧ enter dir name = name :: dir ∧ Real enter dir

structure FileSystem where
  cwd : Place
  /-- Where a name in a directory leads. -/
  enter : Place → Text → Place
  real_cwd : Real enter cwd
  real_enter : ∀ dir name, IsName name → Real enter dir → Real enter (enter dir name)

def plain : FileSystem where
  cwd := []
  enter dir name := name :: dir
  real_cwd := trivial
  real_enter _ _ hname hdir := ⟨hname, rfl, hdir⟩

variable (fs : FileSystem)

def step (place : Place) (component : Text) : Place :=
  if component = [] ∨ component = ['.'] then place
  else if component = parentName then place.tail
  else fs.enter place component

def walk (place : Place) (components : List Text) : Place := components.foldl (step fs) place

/-- `Path(path).resolve()`. -/
def resolve (path : Text) : Place :=
  walk fs (if path.head? = some '/' then [] else fs.cwd) (path.splitOn '/')

section Walk

variable {fs}

theorem step_name (h : IsName name) : step fs place name = fs.enter place name := by
  rw [step, if_neg (by simp [h.ne_nil, h.ne_dot]), if_neg h.ne_parent]

theorem walk_append (components components' : List Text) :
    walk fs place (components ++ components') = walk fs (walk fs place components) components' :=
  List.foldl_append

theorem real_tail (h : Real fs.enter place) : Real fs.enter place.tail := by
  cases place with
  | nil => trivial
  | cons name dir => exact h.2.2

theorem real_step (h : Real fs.enter place) (component : Text) :
    Real fs.enter (step fs place component) := by
  rw [step]
  split
  · exact h
  · rename_i hother
    split
    · exact real_tail h
    · rename_i hparent
      push Not at hother
      exact fs.real_enter place component ⟨hother.1, hother.2, hparent⟩ h

theorem real_walk (h : Real fs.enter place) (components : List Text) :
    Real fs.enter (walk fs place components) := by
  induction components generalizing place with
  | nil => exact h
  | cons component components ih => exact ih (real_step h component)

theorem real_resolve (path : Text) : Real fs.enter (resolve fs path) := by
  rw [resolve]
  apply real_walk
  split
  · trivial
  · exact fs.real_cwd

theorem walk_real (h : Real fs.enter place) : walk fs [] place.reverse = place := by
  induction place with
  | nil => rfl
  | cons name dir ih =>
    obtain ⟨hname, henter, hdir⟩ := h
    rw [List.reverse_cons, walk_append, ih hdir, ← henter]
    exact step_name hname

theorem walk_parents (h : place.length ≤ k) : walk fs place (List.replicate k parentName) = [] := by
  induction k generalizing place with
  | zero => exact List.length_eq_zero_iff.mp (Nat.le_zero.mp h)
  | succ k ih =>
    have hle : place.tail.length ≤ k := by
      rw [List.length_tail]
      omega
    exact ih hle

theorem splitOn_append_slash (path rest : Text) :
    (path ++ '/' :: rest).splitOn '/' = path.splitOn '/' ++ rest.splitOn '/' := by
  simp only [List.splitOn_eq_splitOnP]
  exact List.splitOnP_append_cons path rest (by decide)

/-- The text of so many steps to the parent, each after a slash. -/
def steps (k : ℕ) : Text := (List.replicate k ('/' :: parentName)).flatten

theorem splitOn_append_steps (path : Text) (k : ℕ) :
    (path ++ steps k).splitOn '/' = path.splitOn '/' ++ List.replicate k parentName := by
  induction k generalizing path with
  | zero => simp [steps]
  | succ k ih =>
    have hsteps : path ++ steps (k + 1) = path ++ '/' :: parentName ++ steps k := by
      simp [steps, List.replicate_succ]
    rw [hsteps, ih, splitOn_append_slash, List.replicate_succ, List.append_assoc]
    rfl

theorem exists_steps_to_root (fs : FileSystem) (path : Text) :
    ∃ k, resolve fs (path ++ steps (k + 1)) = [] := by
  refine ⟨(walk fs [] (path.splitOn '/')).length + (walk fs fs.cwd (path.splitOn '/')).length, ?_⟩
  rw [resolve, splitOn_append_steps, walk_append]
  apply walk_parents
  split <;> omega

end Walk

end Agent33.Library.PathWalk
