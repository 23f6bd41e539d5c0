import Mathlib.Algebra.Group.Nat.Defs
import Mathlib.Data.List.Basic
import Mathlib.Data.List.Nodup

/-!
# The live device tree

A node is known by its address, here `id`. The nodes of the tree stand in one
list in which siblings keep their order, so that attaching a node at the head
of its parent's children is attaching it at the head of the list. Property
values are bytes, as the kernel has them; `of_property_read_u32` reads the
first big-endian word and fails where there are fewer than four bytes.
-/

namespace IpaOffload.DeviceTree

abbrev Bytes := List UInt8

-- ---------------------------------------------------------------------------
-- Values
-- ---------------------------------------------------------------------------

/-- `cpu_to_be32`. -/
def be32 (v : UInt32) : Bytes :=
  [.ofNat (v.toNat / 2 ^ 24), .ofNat (v.toNat / 2 ^ 16), .ofNat (v.toNat / 2 ^ 8), .ofNat v.toNat]

def readBe32 : Bytes → Option UInt32
  | a :: b :: c :: d :: _ =>
    some (.ofNat (a.toNat * 2 ^ 24 + b.toNat * 2 ^ 16 + c.toNat * 2 ^ 8 + d.toNat))
  | _ => none

def cells : Bytes → List UInt32
  | a :: b :: c :: d :: rest => (readBe32 [a, b, c, d]).toList ++ cells rest
  | _ => []

def cString (s : String) : Bytes := s.toList.map (fun c => UInt8.ofNat c.toNat) ++ [0]

theorem readBe32_be32 (v : UInt32) (rest : Bytes) : readBe32 (be32 v ++ rest) = some v := by
  have hv : v.toNat < 2 ^ 32 := v.toNat_lt
  simp only [be32, List.cons_append, readBe32, Option.some.injEq]
  apply UInt32.toNat_inj.mp
  simp only [UInt32.toNat_ofNat', UInt8.toNat_ofNat']
  omega

theorem readBe32_be32_self (v : UInt32) : readBe32 (be32 v) = some v := by
  simpa using readBe32_be32 v []

theorem cells_be32 (vs : List UInt32) : cells (vs.flatMap be32) = vs := by
  induction vs with
  | nil => rfl
  | cons v vs ih =>
    have hread := readBe32_be32_self v
    unfold be32 at hread
    rw [List.flatMap_cons, be32]
    simp only [List.cons_append, List.nil_append, cells, hread, ih, Option.toList_some]

-- ---------------------------------------------------------------------------
-- Nodes
-- ---------------------------------------------------------------------------

structure Property where
  name : String
  value : Bytes
  deriving DecidableEq

structure Node where
  id : Nat
  parent : Option Nat
  name : String
  fullName : String
  phandle : UInt32
  props : List Property
  deriving DecidableEq

/-- `of_find_property`. -/
def Node.find (n : Node) (key : String) : Option Property := n.props.find? (·.name = key)

def Node.has (n : Node) (key : String) : Bool := (n.find key).isSome

/-- `of_property_read_u32`. -/
def Node.readU32 (n : Node) (key : String) : Option UInt32 := (n.find key).bind (readBe32 ·.value)

def Node.phandles (n : Node) (key : String) : Option (List UInt32) := (n.find key).map (cells ·.value)

/-- `of_add_property` puts a property last, `of_update_property` in the place
of the one with its name. -/
def putProp (p : Property) : List Property → List Property
  | [] => [p]
  | q :: qs => if q.name = p.name then p :: qs else q :: putProp p qs

def Node.put (n : Node) (p : Property) : Node := { n with props := putProp p n.props }

theorem find_putProp (p : Property) (qs : List Property) (key : String) :
    (putProp p qs).find? (·.name = key) = if p.name = key then some p else qs.find? (·.name = key) := by
  induction qs with
  | nil => by_cases hp : p.name = key <;> simp [putProp, hp]
  | cons q qs ih =>
    by_cases hq : q.name = p.name
    · by_cases hp : p.name = key <;> simp [putProp, hq, hp]
    · rw [putProp, if_neg hq]
      by_cases hp : p.name = key
      · have hqk : q.name ≠ key := fun h => hq (h.trans hp.symm)
        simp [hp, hqk, ih]
      · by_cases hqk : q.name = key <;> simp [hp, hqk, ih]

/-- `kbasename(np->full_name)` up to an `@`. -/
def Node.baseName (n : Node) : List Char :=
  ((n.fullName.toList.reverse.takeWhile (· ≠ '/')).reverse).takeWhile (· ≠ '@')

/-- `of_node_name_eq`. -/
def Node.nameEq (n : Node) (name : String) : Bool := n.baseName = name.toList

def strings : Bytes → List Bytes
  | [] => []
  | b :: rest =>
    if b = 0 then [] :: strings rest
    else match strings rest with
      | [] => [[b]]
      | s :: ss => (b :: s) :: ss

/-- Upper case becomes lower case, as `strcasecmp` compares. -/
def lower (b : UInt8) : UInt8 := if 65 ≤ b ∧ b ≤ 90 then b + 32 else b

def Node.compatible (n : Node) (name : String) : Bool :=
  match n.find "compatible" with
  | none => false
  | some p => (strings p.value).any fun s => s.map lower = (name.toList.map fun c => lower (UInt8.ofNat c.toNat))

-- ---------------------------------------------------------------------------
-- The tree
-- ---------------------------------------------------------------------------

/-- No address from `next` on is in use. -/
structure Tree where
  nodes : List Node
  next : Nat
  fresh : ∀ n ∈ nodes, n.id < next ∧ ∀ p ∈ n.parent, p < next
  nodup : (nodes.map (·.id)).Nodup

/-- `for_each_child_of_node`. -/
def Tree.children (t : Tree) (id : Nat) : List Node := t.nodes.filter (·.parent = some id)

def putAt (id : Nat) (p : Property) (n : Node) : Node := if n.id = id then n.put p else n

@[simp] theorem putAt_id (id : Nat) (p : Property) (n : Node) : (putAt id p n).id = n.id := by
  unfold putAt
  split <;> rfl

@[simp] theorem putAt_parent (id : Nat) (p : Property) (n : Node) : (putAt id p n).parent = n.parent := by
  unfold putAt
  split <;> rfl

def Tree.put (t : Tree) (id : Nat) (p : Property) : Tree where
  nodes := t.nodes.map (putAt id p)
  next := t.next
  fresh n hn := by
    obtain ⟨m, hm, rfl⟩ := List.mem_map.mp hn
    simpa using t.fresh m hm
  nodup := by
    have hids : (t.nodes.map (putAt id p)).map (·.id) = t.nodes.map (·.id) := by
      rw [List.map_map]
      exact List.map_congr_left fun n _ => putAt_id id p n
    rw [hids]
    exact t.nodup

structure Draft where
  parent : Nat
  name : String
  fullName : String
  phandle : UInt32
  props : List Property

def Draft.put (d : Draft) (p : Property) : Draft := { d with props := putProp p d.props }

def Draft.node (d : Draft) (id : Nat) : Node :=
  { id, parent := some d.parent, name := d.name, fullName := d.fullName, phandle := d.phandle, props := d.props }

/-- An address that is not in use, also not as that of a parent. -/
def Tree.freshId (t : Tree) (parent : Nat) : Nat := max t.next (parent + 1)

/-- The draft becomes the first child of its parent. -/
def Tree.attach (t : Tree) (d : Draft) : Tree where
  nodes := d.node (t.freshId d.parent) :: t.nodes
  next := t.freshId d.parent + 1
  fresh n hn := by
    have hle : t.next ≤ t.freshId d.parent := Nat.le_max_left _ _
    have hparent : d.parent < t.freshId d.parent := Nat.le_max_right _ _
    rcases List.mem_cons.mp hn with rfl | hn
    · refine ⟨Nat.lt_succ_self _, ?_⟩
      rintro p hp
      obtain rfl : d.parent = p := Option.some.inj hp
      omega
    · obtain ⟨hid, hp⟩ := t.fresh n hn
      exact ⟨by omega, fun p h => by have := hp p h; omega⟩
  nodup := by
    rw [List.map_cons, List.nodup_cons]
    refine ⟨?_, t.nodup⟩
    intro hmem
    obtain ⟨n, hn, hid⟩ := List.mem_map.mp hmem
    have hlt := (t.fresh n hn).1
    have hle : t.next ≤ t.freshId d.parent := Nat.le_max_left _ _
    have hsame : n.id = t.freshId d.parent := hid
    omega

theorem Tree.children_of_fresh {t : Tree} {id : Nat} (h : t.next ≤ id) : t.children id = [] := by
  unfold Tree.children
  rw [List.filter_eq_nil_iff]
  intro n hn
  simp only [decide_eq_true_eq]
  intro hp
  have hlt := (t.fresh n hn).2 id hp
  omega

theorem Tree.children_attach (t : Tree) (d : Draft) : (t.attach d).children (t.freshId d.parent) = [] := by
  have hle : t.next ≤ t.freshId d.parent := Nat.le_max_left _ _
  have hparent : d.parent < t.freshId d.parent := Nat.le_max_right _ _
  have hrest := Tree.children_of_fresh hle
  unfold Tree.children at hrest ⊢
  have hhead : (d.node (t.freshId d.parent)).parent ≠ some (t.freshId d.parent) := by
    intro h
    have := Option.some.inj h
    omega
  rw [show (t.attach d).nodes = d.node (t.freshId d.parent) :: t.nodes from rfl,
    List.filter_cons_of_neg (by simpa using hhead), hrest]

end IpaOffload.DeviceTree
