import NetServer.Redis.Replies

/-!
# Replies in memory

The objects of a reply lie behind each other in the order in which they are created: an array before
its elements, and every element with all that belongs to it before the next one
(`ReplyTree.layout`). A reply whose arrays are still being filled is laid out in the same way
(`built`), each array but the innermost one with the identity of the next array as its last element.
Freeing the outermost object gives back all of them and nothing else (`freeNested_layout`,
`freeNested_built`).
-/

namespace NetServer

open Lib

/-- Objects that are there. -/
abbrev live (objects : List ReplyObject) : List (Option ReplyObject) := objects.map some

/-- Objects that were freed. -/
abbrev freed (count : Nat) : List (Option ReplyObject) := List.replicate count none

/-- The first of the blocks holds the first object. -/
theorem live_cons (object : ReplyObject) (objects : List ReplyObject) :
    live (object :: objects) = some object :: live objects := rfl

/-- Objects behind each other lie in blocks behind each other. -/
theorem live_append (objects more : List ReplyObject) :
    live (objects ++ more) = live objects ++ live more :=
  List.map_append

/-- Every object lies in one block. -/
theorem length_live (objects : List ReplyObject) : (live objects).length = objects.length :=
  List.length_map some

/-- Released blocks lie behind each other. -/
theorem freed_add (count more : Nat) : freed (count + more) = freed count ++ freed more :=
  List.replicate_add count more none

/-- The object of an item that no elements follow. -/
def ReplyLeaf.object : ReplyLeaf → ReplyObject
  | .string str => .string str
  | .hollow elements => .array elements none
  | .blank others => .array (others + 1) (some (List.replicate (others + 1) none))
  | .integer value => .integer value
  | .nil => .nil
  | .status str => .status str
  | .error str => .error str

mutual

/-- The objects of an item, the first of them with the identity `base`. -/
def ReplyTree.layout (base : Nat) : ReplyTree → List ReplyObject
  | .leaf item => [item.object]
  | .array element =>
    .array element.length (some ((identities (base + 1) element).map some)) ::
      layouts (base + 1) element

/-- The objects of items, one item behind the other. -/
def ReplyTree.layouts (base : Nat) : List ReplyTree → List ReplyObject
  | [] => []
  | item :: items => item.layout base ++ layouts (base + (item.layout base).length) items

/-- The identities of items, one behind the other. -/
def ReplyTree.identities (base : Nat) : List ReplyTree → List Nat
  | [] => []
  | item :: items => base :: identities (base + (item.layout base).length) items

end

namespace ReplyTree

/-- Items are laid out behind each other. -/
theorem layouts_append (base : Nat) (items more : List ReplyTree) :
    layouts base (items ++ more) =
      layouts base items ++ layouts (base + (layouts base items).length) more := by
  induction items generalizing base with
  | nil => rfl
  | cons item items ih =>
    rw [List.cons_append, layouts, layouts, ih, List.append_assoc, List.length_append,
      Nat.add_assoc]

/-- The identities of further items start behind the objects of the first ones. -/
theorem identities_append (base : Nat) (items more : List ReplyTree) :
    identities base (items ++ more) =
      identities base items ++ identities (base + (layouts base items).length) more := by
  induction items generalizing base with
  | nil => rfl
  | cons item items ih =>
    rw [List.cons_append, identities, identities, ih, layouts, List.length_append, List.cons_append,
      Nat.add_assoc]

/-- Every item has one identity. -/
theorem length_identities (base : Nat) (items : List ReplyTree) :
    (identities base items).length = items.length := by
  induction items generalizing base with
  | nil => rfl
  | cons item items ih => rw [identities, List.length_cons, ih, List.length_cons]

/-- Every item has an object. -/
theorem layout_ne_nil (base : Nat) (item : ReplyTree) : item.layout base ≠ [] := by
  cases item <;> exact List.cons_ne_nil _ _

/-! ## Giving objects back -/

/-- The identities in a vector. -/
theorem reduceOption_vector (identities : List Nat) (missing : Nat) :
    (identities.map some ++ List.replicate missing none).reduceOption = identities := by
  rw [List.reduceOption_append, List.reduceOption_replicate_none, List.append_nil]
  simp [List.reduceOption]

/-- Freeing an array frees the array behind its elements. -/
theorem freeNested_array {depth elements : Nat} {vector : List (Option Nat)} {ids : List Nat}
    {front body back : List (Option ReplyObject)} (isVector : vector.reduceOption = ids)
    (frees : ids.foldlM (freeNested depth) ⟨front ++ some (.array elements (some vector)) ::
      (body ++ back)⟩ =
      .ok ⟨front ++ some (.array elements (some vector)) :: (freed body.length ++ back)⟩) :
    freeNested (depth + 1) ⟨front ++ some (.array elements (some vector)) :: (body ++ back)⟩
      front.length =
      .ok ⟨front ++ (freed (body.length + 1) ++ back)⟩ := by
  rw [freeNested, Heap.get?_append]
  simp only [isVector, frees]
  exact congrArg Except.ok Heap.free_append

mutual

/-- Freeing an item frees its objects. -/
theorem freeNested_layout :
    (item : ReplyTree) → (front back : List (Option ReplyObject)) → (depth : Nat) →
      (item.layout front.length).length ≤ depth →
      freeNested depth ⟨front ++ (live (item.layout front.length) ++ back)⟩ front.length =
        .ok ⟨front ++ (freed (item.layout front.length).length ++ back)⟩
  | .leaf item, front, back, depth, deep => by
    cases depth with
    | zero => exact absurd deep (Nat.not_succ_le_zero _)
    | succ depth =>
      have first :
        (Heap.mk (front ++ (live (layout front.length (.leaf item)) ++ back))).get? front.length =
          some item.object := Heap.get?_append
      rw [freeNested, first]
      cases item with
      | blank others =>
        simp only [ReplyLeaf.object, List.reduceOption_replicate_none]
        exact congrArg Except.ok Heap.free_append
      | string | hollow | integer | nil | status | error =>
        exact congrArg Except.ok Heap.free_append
  | .array element, front, back, depth, deep => by
    cases depth with
    | zero => exact absurd deep (Nat.not_succ_le_zero _)
    | succ depth =>
      have body := freeNested_layouts element
        (front ++
          [some (.array element.length (some ((identities (front.length + 1) element).map some)))])
          back depth
        (by rw [List.length_append]; exact Nat.le_of_succ_le_succ deep)
      have vector := reduceOption_vector (identities (front.length + 1) element) 0
      rw [List.replicate_zero, List.append_nil] at vector
      rw [List.length_append, List.length_singleton, List.append_assoc, List.append_assoc] at body
      rw [List.singleton_append, List.singleton_append, ← length_live] at body
      have frees := freeNested_array vector body
      rw [length_live] at frees
      exact frees

/-- Freeing items frees their objects. -/
theorem freeNested_layouts :
    (items : List ReplyTree) → (front back : List (Option ReplyObject)) → (depth : Nat) →
      (layouts front.length items).length ≤ depth →
      (identities front.length items).foldlM (freeNested depth)
        ⟨front ++ (live (layouts front.length items) ++ back)⟩ =
        .ok ⟨front ++ (freed (layouts front.length items).length ++ back)⟩
  | [], front, back, depth, deep => rfl
  | item :: items, front, back, depth, deep => by
    have size : (front ++ freed (item.layout front.length).length).length =
        front.length + (item.layout front.length).length := by
      rw [List.length_append, List.length_replicate]
    rw [layouts, List.length_append] at deep
    have first := freeNested_layout item front
      (live (layouts (front.length + (item.layout front.length).length) items) ++ back) depth
        (by omega)
    have others :=
      freeNested_layouts items (front ++ freed (item.layout front.length).length) back depth
        (by rw [size]; omega)
    rw [size, List.append_assoc, List.append_assoc] at others
    rw [identities, layouts, List.foldlM_cons, live_append, List.append_assoc, first,
      List.length_append, freed_add, List.append_assoc]
    exact others

end

end ReplyTree

/-! ## Arrays that are being filled -/

namespace OpenArray

open ReplyTree

/-- The objects of an array that is being filled. Its vector holds the identities of its complete
elements and of the array that is being filled as its next element, if there is one. -/
def objects (base : Nat) (inner : List Nat) (array : OpenArray) : List ReplyObject :=
  .array (sizeT array.elements)
    (if array.elements > 0 then
      some ((identities (base + 1) array.element ++ inner).map some ++
        List.replicate (array.elements.toNat - array.element.length - inner.length) none)
    else none) :: layouts (base + 1) array.element

/-- The identity behind the objects of an array. -/
def next (base : Nat) (array : OpenArray) : Nat :=
  base + 1 + (layouts (base + 1) array.element).length

/-- The objects of an array whose next element is being filled. -/
def holding (base : Nat) (array : OpenArray) : List ReplyObject :=
  array.objects base [array.next base]

/-- An array with room for another element and a count that is an `int`. -/
structure Sound (array : OpenArray) : Prop where
  room : array.HasRoom
  small : array.elements < 2 ^ 31

/-- An array with room for an element announced one. -/
theorem Sound.pos {array : OpenArray} (sound : array.Sound) : 0 < array.elements := by
  have room := sound.room
  rw [HasRoom] at room
  omega

variable {array : OpenArray} {base : Nat} {inner : List Nat}

/-- Behind the objects of an open array lies the next free block. -/
theorem add_length_objects : base + (array.objects base inner).length = array.next base := by
  rw [objects, next, List.length_cons]
  omega

/-- An item behind an array becomes its element. -/
theorem holding_append_layout (sound : array.Sound) (item : ReplyTree) :
    array.holding base ++ item.layout (array.next base) = (array.push item).objects base [] := by
  have count : array.elements.toNat - array.element.length - 1 =
      array.elements.toNat - (array.element ++ [item]).length - 0 := by
    rw [List.length_append, List.length_singleton]
    omega
  have ids : identities (base + 1) (array.element ++ [item]) =
      identities (base + 1) array.element ++ [array.next base] := by
    rw [identities_append]
    rfl
  have body : layouts (base + 1) (array.element ++ [item]) =
      layouts (base + 1) array.element ++ item.layout (array.next base) := by
    rw [layouts_append, layouts, layouts, List.append_nil]
    rfl
  rw [holding, objects, objects, push, if_pos sound.pos, if_pos sound.pos, ids, body,
    List.append_nil, List.length_nil, List.length_singleton, count]
  rfl

/-- An array with all its elements is complete. -/
theorem objects_complete (base : Nat) (full : (array.element.length : Int) = array.elements)
    (nonempty : array.element ≠ []) (small : array.elements < 2 ^ 31) :
    array.objects base [] = layout base (.array array.element) := by
  have positive : array.elements > 0 := by
    have length := List.length_pos_iff.mpr nonempty
    omega
  have size : sizeT array.elements = array.element.length := by
    rw [sizeT_of_nonneg (by omega) (by omega)]
    omega
  have none : array.elements.toNat - array.element.length - 0 = 0 := by omega
  rw [objects, layout, if_pos positive, List.append_nil, List.length_nil, size, none,
    List.replicate_zero, List.append_nil]

end OpenArray

/-- The objects of arrays that are being filled, in front of the next item. -/
def front (base : Nat) : List OpenArray → List ReplyObject
  | [] => []
  | array :: arrays => front base arrays ++ array.holding (base + (front base arrays).length)

/-- The objects of arrays that are being filled, when the next item has no object yet. -/
def built (base : Nat) : List OpenArray → List ReplyObject
  | [] => []
  | array :: arrays => front base arrays ++ array.objects (base + (front base arrays).length) []

/-- An item behind the objects of arrays is one of their elements. -/
theorem front_append_layout {array : OpenArray} (sound : array.Sound) (base : Nat)
    (arrays : List OpenArray) (item : ReplyTree) :
    front base (array :: arrays) ++ item.layout (base + (front base (array :: arrays)).length) =
      built base (array.push item :: arrays) := by
  have next : base + (front base (array :: arrays)).length =
      array.next (base + (front base arrays).length) := by
    rw [front, List.length_append, ← Nat.add_assoc, OpenArray.holding, OpenArray.add_length_objects]
  rw [next, front, List.append_assoc, OpenArray.holding_append_layout sound, built]

/-- An item that takes its place lies behind the arrays around it, up to a complete reply. -/
theorem complete_layout {arrays : List OpenArray} (sound : ∀ array ∈ arrays, array.Sound)
    (base : Nat) (item : ReplyTree) : match ReplyState.complete item arrays with
    | .ok (.inl arrays') =>
      front base arrays ++ item.layout (base + (front base arrays).length) = built base arrays'
    | .ok (.inr reply) =>
      front base arrays ++ item.layout (base + (front base arrays).length) = reply.layout base
    | .error _ => False := by
  induction arrays generalizing item with
  | nil => rfl
  | cons array arrays ih =>
    rw [List.forall_mem_cons] at sound
    rw [ReplyState.complete, if_neg (not_not_intro sound.1.room), front_append_layout sound.1]
    by_cases more : (array.push item).HasRoom
    · rw [if_pos more]
    · rw [if_neg more]
      have full : ((array.push item).element.length : Int) = (array.push item).elements := by
        have room := sound.1.room
        simp only [OpenArray.HasRoom, OpenArray.push, List.length_append, List.length_singleton]
          at room more ⊢
        omega
      have outer := ih sound.2 (.array (array.push item).element)
      have complete := OpenArray.objects_complete (base + (front base arrays).length) full
        (by simp [OpenArray.push]) sound.1.small
      rw [built, complete]
      exact outer

/-! ### Giving up -/

/-- Arrays that are being filled, where the innermost one may have been announced with a count that
is no `int`. -/
def Opened : List OpenArray → Prop
  | [] => True
  | array :: arrays =>
    (array.Sound ∨ array.elements ≤ 0 ∧ array.element = []) ∧ ∀ array ∈ arrays, array.Sound

/-- The objects of arrays start with those of the outermost one. -/
theorem front_concat (base : Nat) (inner : List OpenArray) (outer : OpenArray) :
    front base (inner ++ [outer]) = outer.holding base ++ front (outer.next base) inner := by
  induction inner with
  | nil => exact (List.append_nil _).symm
  | cons array inner ih =>
    rw [List.cons_append, front, ih, front, List.append_assoc, List.length_append, ← Nat.add_assoc,
      OpenArray.holding, OpenArray.add_length_objects]

/-- The outermost array lies in front of the arrays inside it. -/
theorem built_concat (base : Nat) (array : OpenArray) (inner : List OpenArray) (outer : OpenArray) :
    built base (array :: inner ++ [outer]) =
      outer.holding base ++ built (outer.next base) (array :: inner) := by
  rw [List.cons_append, built, front_concat, built, List.append_assoc, List.length_append,
    ← Nat.add_assoc, OpenArray.holding, OpenArray.add_length_objects]

/-- Freeing an array frees its complete elements and what is freed for the identity behind them. -/
theorem freeNested_objects {array : OpenArray} (sound : array.Sound) (inner : List Nat)
    (body : List (Option ReplyObject)) {front back : List (Option ReplyObject)} {depth : Nat}
    (deep : (array.objects front.length inner).length ≤ depth + 1)
    (frees : ∀ before : List (Option ReplyObject), before.length = array.next front.length →
      inner.foldlM (freeNested depth) ⟨before ++ (body ++ back)⟩ =
        .ok ⟨before ++ (freed body.length ++ back)⟩) :
    freeNested (depth + 1) ⟨front ++ (live (array.objects front.length inner) ++ (body ++ back))⟩
      front.length =
      .ok ⟨front ++ (freed ((array.objects front.length inner).length + body.length) ++ back)⟩ := by
  rw [OpenArray.objects, if_pos sound.pos] at deep ⊢
  generalize isVector : (ReplyTree.identities (front.length + 1) array.element ++ inner).map some ++
    List.replicate (array.elements.toNat - array.element.length - inner.length) none =
      vector at deep ⊢
  have ids : vector.reduceOption = ReplyTree.identities (front.length + 1) array.element ++
      inner := by
    rw [← isVector, ReplyTree.reduceOption_vector]
  have size : (front ++ [some (ReplyObject.array (sizeT array.elements) (some vector))]).length =
      front.length + 1 :=
    List.length_append
  have elements :=
    ReplyTree.freeNested_layouts array.element
        (front ++ [some (.array (sizeT array.elements) (some vector))])
      (body ++ back) depth (by rw [size]; exact Nat.le_of_succ_le_succ deep)
  rw [size, List.append_assoc, List.append_assoc, List.singleton_append, List.singleton_append]
    at elements
  generalize isLayouts : ReplyTree.layouts (front.length + 1) array.element = layouts at elements ⊢
  have others :=
    frees (front ++ some (.array (sizeT array.elements) (some vector)) :: freed layouts.length)
      (by rw [OpenArray.next, isLayouts, List.length_append, List.length_cons,
        List.length_replicate]; omega)
  rw [List.append_assoc, List.append_assoc, List.cons_append, List.cons_append] at others
  have both :
    (ReplyTree.identities (front.length + 1) array.element ++ inner).foldlM (freeNested depth)
      ⟨front ++ some (.array (sizeT array.elements) (some vector)) ::
        ((live layouts ++ body) ++ back)⟩ =
        .ok ⟨front ++ some (.array (sizeT array.elements) (some vector)) ::
          (freed (live layouts ++ body).length ++ back)⟩ := by
    rw [List.foldlM_append, List.append_assoc, elements, List.length_append, length_live, freed_add,
      List.append_assoc]
    exact others
  have all := ReplyTree.freeNested_array ids both
  rw [List.append_assoc] at all
  have count : (live layouts ++ body).length + 1 =
      (ReplyObject.array (sizeT array.elements) (some vector) :: layouts).length + body.length := by
    rw [List.length_append, length_live, List.length_cons]
    omega
  rw [← count]
  exact all

/-- Freeing an array that was announced with a count that is no `int` frees this object. -/
theorem freeNested_barren {array : OpenArray} (barren : array.elements ≤ 0 ∧ array.element = [])
    (front back : List (Option ReplyObject)) (depth : Nat) :
    freeNested (depth + 1) ⟨front ++ (live (array.objects front.length []) ++ back)⟩ front.length =
      .ok ⟨front ++ (freed (array.objects front.length []).length ++ back)⟩ := by
  rw [OpenArray.objects, if_neg (by omega), barren.2]
  have first :
    (Heap.mk (front ++ some (.array (sizeT array.elements) none) :: back)).get? front.length =
    some (.array (sizeT array.elements) none) := Heap.get?_append
  change freeNested (depth + 1) ⟨front ++ some (.array (sizeT array.elements) none) :: back⟩
    front.length = _
  rw [freeNested, first]
  exact congrArg Except.ok Heap.free_append

/-- Freeing the outermost of the arrays that are being filled frees all their objects. -/
theorem freeNested_built {arrays : List OpenArray} (opened : Opened arrays) (nonempty : arrays ≠ [])
    (front back : List (Option ReplyObject)) {depth : Nat}
    (deep : (built front.length arrays).length ≤ depth) :
    freeNested depth ⟨front ++ (live (built front.length arrays) ++ back)⟩ front.length =
      .ok ⟨front ++ (freed (built front.length arrays).length ++ back)⟩ := by
  -- The induction is on the arrays from the outermost one inwards, as the objects are freed.
  induction arrays using List.reverseRecOn generalizing front depth with
  | nil => exact absurd rfl nonempty
  | append_singleton inner outer ih =>
    cases inner with
    | nil =>
      have alone : built front.length ([] ++ [outer]) = outer.objects front.length [] := rfl
      rw [alone] at deep ⊢
      obtain ⟨depth, rfl⟩ := Nat.exists_eq_add_of_lt (Nat.lt_of_lt_of_le (Nat.succ_pos _) deep)
      rw [Nat.zero_add] at deep ⊢
      obtain sound | barren := opened.1
      · exact freeNested_objects sound [] [] deep (fun _ _ => rfl)
      · exact freeNested_barren barren front back depth
    | cons array inner =>
      have sound : outer.Sound := opened.2 outer (List.mem_append_right _ List.mem_cons_self)
      have inside : Opened (array :: inner) :=
        ⟨opened.1, fun array listed => opened.2 array (List.mem_append_left _ listed)⟩
      rw [built_concat] at deep ⊢
      rw [List.length_append] at deep
      have one : 1 ≤ (outer.holding front.length).length := Nat.succ_pos _
      obtain ⟨depth, rfl⟩ := Nat.exists_eq_add_of_lt (by omega : 0 < depth)
      rw [Nat.zero_add] at deep ⊢
      have shallow : (built (outer.next front.length) (array :: inner)).length ≤ depth := by omega
      rw [live_append, List.append_assoc, List.length_append,
        ← length_live (built (outer.next front.length) (array :: inner))]
      apply freeNested_objects sound
      · change (outer.holding front.length).length ≤ depth + 1
        omega
      · intro before size
        rw [← size] at shallow
        have element := ih inside (List.cons_ne_nil _ _) before shallow
        rw [size] at element
        rw [length_live, List.foldlM_cons, element]
        rfl

/-- Freeing a reply frees its objects. -/
theorem freeReplyObject_layout (front back : List (Option ReplyObject)) (reply : ReplyTree) :
    freeReplyObject ⟨front ++ (live (reply.layout front.length) ++ back)⟩ front.length =
      .ok ⟨front ++ (freed (reply.layout front.length).length ++ back)⟩ := by
  apply reply.freeNested_layout front back
  change _ ≤ (front ++ (live (reply.layout front.length) ++ back)).length
  rw [List.length_append, List.length_append, length_live]
  omega

/-- Freeing a reply that is being read frees its objects. -/
theorem freeReplyObject_built (past : List (Option ReplyObject)) {arrays : List OpenArray}
    (opened : Opened arrays) (nonempty : arrays ≠ []) :
    freeReplyObject ⟨past ++ live (built past.length arrays)⟩ past.length =
      .ok ⟨past ++ freed (built past.length arrays).length⟩ := by
  have deep : (built past.length arrays).length ≤
      (past ++ live (built past.length arrays)).length := by
    rw [List.length_append, length_live]
    omega
  have frees := freeNested_built opened nonempty past [] deep
  rwa [List.append_nil, List.append_nil] at frees

/-! ## Reading a reply from memory -/

/-- The item with an identity, if its arrays are nested less than `depth` times and all or none of
the elements of each are there. -/
def loadNested : Nat → Heap ReplyObject → Nat → Option ReplyTree
  | 0, _, _ => none
  | depth + 1, objects, reply =>
    match objects.get? reply with
    | none => none
    | some (.string str) => some (.leaf (.string str))
    | some (.array elements none) => some (.leaf (.hollow elements))
    | some (.array _ (some element)) =>
      match element.mapM fun item => item.bind (loadNested depth objects) with
      | some items => some (.array items)
      | none =>
        if element.reduceOption = [] then some (.leaf (.blank (element.length - 1))) else none
    | some (.integer value) => some (.leaf (.integer value))
    | some .nil => some (.leaf .nil)
    | some (.status str) => some (.leaf (.status str))
    | some (.error str) => some (.leaf (.error str))

/-- The reply with an identity. -/
def loadReply (objects : Heap ReplyObject) (reply : Nat) : Option ReplyTree :=
  loadNested objects.next objects reply

namespace ReplyTree

mutual

/-- An item that lies in memory is found there. -/
theorem loadNested_layout :
    (item : ReplyTree) → (front back : List (Option ReplyObject)) → (depth : Nat) →
      (item.layout front.length).length ≤ depth →
      loadNested depth ⟨front ++ (live (item.layout front.length) ++ back)⟩ front.length = some item
  | .leaf item, front, back, depth, deep => by
    cases depth with
    | zero => exact absurd deep (Nat.not_succ_le_zero _)
    | succ depth =>
      have first :
        (Heap.mk (front ++ (live (layout front.length (.leaf item)) ++ back))).get? front.length =
          some item.object := Heap.get?_append
      rw [loadNested, first]
      cases item with
      | blank others =>
        simp only [ReplyLeaf.object, List.reduceOption_replicate_none, List.length_replicate]
        rfl
      | string | hollow | integer | nil | status | error => rfl
  | .array element, front, back, depth, deep => by
    cases depth with
    | zero => exact absurd deep (Nat.not_succ_le_zero _)
    | succ depth =>
      have body := loadNested_layouts element
        (front ++
          [some (.array element.length (some ((identities (front.length + 1) element).map some)))])
          back depth
        (by rw [List.length_append]; exact Nat.le_of_succ_le_succ deep)
      rw [List.length_append, List.length_singleton, List.append_assoc, List.singleton_append]
        at body
      have first :
        (Heap.mk (front ++ (live (layout front.length (.array element)) ++ back))).get?
          front.length =
          some (.array element.length (some ((identities (front.length + 1) element).map some))) :=
            Heap.get?_append
      rw [loadNested, first, layout, live_cons, List.cons_append]
      simp only [body]

/-- Items that lie in memory are found there. -/
theorem loadNested_layouts :
    (items : List ReplyTree) → (front back : List (Option ReplyObject)) → (depth : Nat) →
      (layouts front.length items).length ≤ depth →
      ((identities front.length items).map some).mapM (fun item => item.bind
        (loadNested depth ⟨front ++ (live (layouts front.length items) ++ back)⟩)) = some items
  | [], front, back, depth, deep => rfl
  | item :: items, front, back, depth, deep => by
    rw [layouts, List.length_append] at deep
    have first := loadNested_layout item front
      (live (layouts (front.length + (item.layout front.length).length) items) ++ back) depth
        (by omega)
    have size : (front ++ live (item.layout front.length)).length =
        front.length + (item.layout front.length).length := by
      rw [List.length_append, length_live]
    have others :=
      loadNested_layouts items (front ++ live (item.layout front.length)) back depth
        (by rw [size]; omega)
    rw [size, List.append_assoc] at others
    rw [identities, layouts, live_append, List.append_assoc, List.map_cons, List.mapM_cons,
      Option.bind_some, first, others]
    rfl

end

end ReplyTree

/-- A reply that lies between other objects is found there. -/
theorem loadReply_layout (front back : List (Option ReplyObject)) (reply : ReplyTree) :
    loadReply ⟨front ++ (live (reply.layout front.length) ++ back)⟩ front.length = some reply := by
  apply reply.loadNested_layout front back
  change _ ≤ (front ++ (live (reply.layout front.length) ++ back)).length
  rw [List.length_append, List.length_append, length_live]
  omega

end NetServer
