import NetServer.Common.CStd
import NetServer.Lib.Text

/-!
# Names of files

How the names of files are looked up: the components of a path lead from the root or from the
working directory through one directory after another. A path below a directory leads on from where
the directory's own path leads (`place_below`), however many slashes there are between its
components. All directories may be read.
-/

namespace NetServer

open Lib

/-- The name of an entry of a directory. -/
def FileName : Type := { name : Bytes // name ≠ [] ∧ 47 ∉ name }

/-- What a name stands for when symbolic links are followed. -/
inductive Node where
  | dir (ino : Nat)
  /-- A socket or a block device. -/
  | device
  /-- Anything else. -/
  | file
  deriving DecidableEq, Repr

/-- The directory that a name stands for. -/
def Node.ino? : Node → Option Nat
  | .dir ino => some ino
  | _ => none

/-- The entries of the directories, and where paths start. -/
structure FileSystem where
  root : Nat
  cwd : Nat
  entries : Nat → List (FileName × Node)

/-- The components of a path. -/
def components (path : Bytes) : List Bytes := (path.splitOn 47).filter (· ≠ [])

/-- A path up to its last slash. -/
def dirPart (path : Bytes) : Bytes := path.rdropWhile (· ≠ 47)

/-- The rest of a path behind its last slash. -/
def namePart (path : Bytes) : Bytes := path.rtakeWhile (· ≠ 47)

namespace FileSystem

variable (fs : FileSystem)

/-- What a name stands for in a directory. -/
def lookup (ino : Nat) (name : Bytes) : Option Node :=
  if name = bytes "." then
    some (.dir ino) else ((fs.entries ino).find? (·.1.val = name)).map Prod.snd

/-- One component further. -/
def enter : Node → Bytes → Option Node
  | .dir ino, name => fs.lookup ino name
  | _, _ => none

/-- Where components lead. -/
def walk (node : Node) (names : List Bytes) : Option Node := names.foldlM fs.enter node

/-- Where a path starts. -/
def origin (path : Bytes) : Node := .dir (if path.head? = some 47 then fs.root else fs.cwd)

/-- Where a path leads. -/
def node (path : Bytes) : Option Node :=
  if path = [] then none else fs.walk (fs.origin path) (components path)

/-- The directory of the last component of a path, and the component. -/
def place (path : Bytes) : Option (Nat × Bytes) :=
  (components path).getLast?.bind fun name =>
    ((fs.walk (fs.origin path) (components path).dropLast).bind Node.ino?).map fun ino =>
      (ino, name)

/-- Whether a path leads to something that is neither a directory nor a device. -/
def HasFile (path : Bytes) : Prop :=
  ∃ ino name, fs.place path = some (ino, name) ∧ fs.lookup ino name = some .file

/-- `scandir` with a filter for the two entries of dots. -/
def scandir (dir : Bytes) : Option (List FileName) :=
  ((fs.node dir).bind Node.ino?).map fun ino =>
    ((fs.entries ino).map Prod.fst).filter fun name => name.val ≠ bytes "." ∧ name.val ≠ bytes ".."

end FileSystem

/-! ## Components -/

/-- A slash separates components. -/
theorem components_slash (front back : Bytes) :
    components (front ++ 47 :: back) = components front ++ components back := by
  have separated : (front ++ 47 :: back).splitOn 47 = front.splitOn 47 ++ back.splitOn 47 :=
    List.splitOnP_append_cons front back (beq_self_eq_true 47)
  rw [components, separated, List.filter_append]
  rfl

/-- There is nothing between slashes. -/
theorem components_nil : components [] = [] := rfl

/-- A name is one component. -/
theorem components_name {name : Bytes} (some : name ≠ []) (noSlash : 47 ∉ name) :
    components name = [name] := by
  have whole : name.splitOn 47 = [name] := by
    refine List.splitOnP_eq_singleton fun c listed => ?_
    rw [beq_eq_false_iff_ne]
    rintro rfl
    exact noSlash listed
  rw [components, whole, List.filter_cons_of_pos (by simpa using some), List.filter_nil]

/-- The two parts of a path. -/
theorem dirPart_append_namePart (path : Bytes) : dirPart path ++ namePart path = path :=
  List.rdropWhile_append_rtakeWhile

/-- A name has one part. -/
theorem parts_of_noSlash {path : Bytes} (noSlash : 47 ∉ path) :
    dirPart path = [] ∧ namePart path = path := by
  have other : ∀ c ∈ path, decide (c ≠ 47) = true := by
    intro c listed
    rw [decide_eq_true_iff]
    rintro rfl
    exact noSlash listed
  exact ⟨List.rdropWhile_eq_nil_iff.mpr other, List.rtakeWhile_eq_self_iff.mpr other⟩

/-- The first part ends with the slash. -/
theorem dirPart_eq (path : Bytes) : dirPart path = [] ∨ ∃ front, dirPart path = front ++ [47] := by
  by_cases none : dirPart path = []
  · exact .inl none
  · have isLast := List.rdropWhile_last_not (fun c => decide (c ≠ 47)) path none
    have slash : (dirPart path).getLast none = 47 := of_not_not fun other =>
      isLast (decide_eq_true other)
    refine .inr ⟨(dirPart path).dropLast, ?_⟩
    rw [← slash, List.dropLast_append_getLast]

/-- The second part has no slash. -/
theorem slash_not_mem_namePart (path : Bytes) : 47 ∉ namePart path := by
  intro slash
  have other := List.mem_rtakeWhile_imp slash
  simp at other

/-- A name behind a path goes on with the last component. -/
theorem components_append_name (path : Bytes) {name : Bytes} (some : name ≠ [])
    (noSlash : 47 ∉ name) :
    components (path ++ name) = components (dirPart path) ++ [namePart path ++ name] := by
  have last : components (namePart path ++ name) = [namePart path ++ name] := by
    refine components_name (fun none => some (List.append_eq_nil_iff.mp none).2) ?_
    rw [List.mem_append, not_or]
    exact ⟨slash_not_mem_namePart path, noSlash⟩
  have whole := dirPart_append_namePart path
  obtain none | ⟨front, isFront⟩ := dirPart_eq path
  · rw [none, List.nil_append] at whole
    rw [none, components_nil, List.nil_append, ← last, whole]
  · have cut : path ++ name = front ++ 47 :: (namePart path ++ name) := by
      rw [isFront, List.append_assoc, List.singleton_append] at whole
      nth_rewrite 1 [← whole]
      rw [List.append_assoc, List.cons_append]
    rw [cut, components_slash, last, isFront, components_slash, components_nil, List.append_nil]

/-! ## Where paths lead -/

/-- Only a directory has a number. -/
theorem Node.ino?_eq_some {node : Node} {ino : Nat} : node.ino? = some ino ↔ node = .dir ino := by
  cases node with
  | dir other => simp [ino?]
  | device => simp [ino?]
  | file => simp [ino?]

namespace FileSystem

variable {fs : FileSystem}

/-- Components lead on from where others lead. -/
theorem walk_append (node : Node) (names names' : List Bytes) :
    fs.walk node (names ++ names') = (fs.walk node names).bind fun node => fs.walk node names' :=
  List.foldlM_append

/-- Only directories lead to directories. -/
theorem walk_dir {node : Node} {names : List Bytes} {ino : Nat}
    (walked : fs.walk node names = some (.dir ino)) : ∃ first, node = .dir first := by
  cases node with
  | dir first => exact ⟨first, rfl⟩
  | device => cases names <;> cases walked
  | file => cases names <;> cases walked

/-- Behind a path the start is the same. -/
theorem origin_append {path : Bytes} (some : path ≠ []) (rest : Bytes) :
    fs.origin (path ++ rest) = fs.origin path := by
  obtain ⟨c, path, rfl⟩ := List.exists_cons_of_ne_nil some
  rfl

/-- A path with components behind those of another leads on from where the other leads. -/
theorem node_below {path dir : Bytes} {names : List Bytes} (some : dir ≠ []) (front : dir <+: path)
    (parts : components path = components dir ++ names) :
    fs.node path = (fs.node dir).bind fun node => fs.walk node names := by
  obtain ⟨rest, rfl⟩ := front
  have some' : dir ++ rest ≠ [] := fun none => some (List.append_eq_nil_iff.mp none).1
  rw [node, if_neg some', parts, walk_append, origin_append some, node, if_neg some]

/-- The last component of such a path is in a directory that the others lead to. -/
theorem place_below {path dir : Bytes} {names : List Bytes} {name : Bytes} (some : dir ≠ [])
    (front : dir <+: path) (parts : components path = components dir ++ (names ++ [name]))
    {ino : Nat} {last : Bytes} :
    fs.place path = .some (ino, last) ↔
      ∃ node, fs.node dir = .some node ∧ fs.walk node names = .some (.dir ino) ∧ name = last := by
  obtain ⟨rest, rfl⟩ := front
  have walked : fs.walk (fs.origin (dir ++ rest)) (components dir ++ names) =
      (fs.node dir).bind fun node => fs.walk node names := by
    rw [origin_append some, walk_append, node, if_neg some]
  rw [FileSystem.place, parts, ← List.append_assoc, List.getLast?_concat, List.dropLast_concat,
    walked, Option.bind_some]
  simp only [Option.map_eq_some_iff, Option.bind_eq_some_iff, Node.ino?_eq_some, Prod.mk.injEq]
  constructor
  · rintro ⟨ino, ⟨_, ⟨node, isNode, walked⟩, rfl⟩, rfl, rfl⟩
    exact ⟨node, isNode, walked, rfl⟩
  · rintro ⟨node, isNode, walked, rfl⟩
    exact ⟨ino, ⟨_, ⟨node, isNode, walked⟩, rfl⟩, rfl, rfl⟩

end FileSystem

end NetServer
