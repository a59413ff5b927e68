import MiniPascal.Proofs.Printing.RoundTrip
import MiniPascal.Proofs.Printing.WellFormed

/-!
# Inventories of trees

The **address** of a part of a tree leads to it from the top: it has the number of a child for each
step down. The **inventory** of a tree lists all its parts with their addresses, in pre-order. An
address is in it exactly if it leads to a part (`Node.mem_inventory`), and the addresses grow in
lexicographic order (`Node.pairwise_inventory`). The outline is the inventory with the lengths of
the addresses in their place.

The size of a tree is the number of its entries (`Node.length_inventory`), and this holds of each
part too: what is below a part stands next to it, in as many entries as the part has nodes
(`Node.address_prefix_iff`). Sizes stay as they are if tokens and ids are changed or variables are
grouped, so what is read from a printed program has the size of the program.
-/

namespace MiniPascal

namespace Node

/-! ### Addresses -/

/-- The part that an address leads to: from a part, each number leads to the child of this number,
where the first child has the number zero. -/
def part? : Node → List Nat → Option Node
  | node, [] => some node
  | node, k :: address => node.children[k]?.bind fun child => child.part? address

/-- Two addresses are followed one after the other. -/
theorem part?_append (node : Node) (address address' : List Nat) :
    node.part? (address ++ address') =
      (node.part? address).bind fun part => part.part? address' := by
  induction address generalizing node with
  | nil => rfl
  | cons k address ih =>
    rw [List.cons_append, part?, part?]
    cases node.children[k]? with
    | none => rfl
    | some child => exact ih child

/-! ### Inventories -/

/-- A part of a tree with the address that leads to it from the top. Equal parts at two places have
different addresses. -/
structure Entry where
  address : List Nat
  part : Node

/-- An entry as it is in a larger tree, where an address leads to the top of the smaller one. Its
part stays the same. -/
def Entry.under (address : List Nat) (entry : Entry) : Entry :=
  ⟨address ++ entry.address, entry.part⟩

/-- All parts of a tree with their addresses, in pre-order. It lists what `outline` lists, with
addresses in place of depths (`outline_eq_map_inventory`). -/
def inventory (node : Node) : List Entry :=
  ⟨[], node⟩ :: node.children.zipIdx.attach.flatMap fun ⟨(child, k), _⟩ =>
    child.inventory.map (.under [k])
termination_by node.size
decreasing_by exact size_lt_of_mem_children (List.fst_mem_of_mem_zipIdx ‹_›)

/-- A part comes before the inventories of its children, in which addresses begin with the number of
the child. -/
theorem inventory_eq (node : Node) :
    node.inventory = ⟨[], node⟩ ::
      node.children.zipIdx.flatMap fun child => child.1.inventory.map (.under [child.2]) := by
  rw [inventory, List.flatMap_subtype fun _ _ => rfl, List.unattach_attach]

theorem Entry.under_nil : Entry.under [] = id :=
  rfl

theorem Entry.under_comp_under (address address' : List Nat) :
    Entry.under address ∘ Entry.under address' = Entry.under (address ++ address') :=
  funext fun entry => by simp [under]

/-- An inventory has the parts that addresses lead to, and no others. -/
theorem mem_inventory {node : Node} {entry : Entry} :
    entry ∈ node.inventory ↔ node.part? entry.address = some entry.part := by
  induction node using Node.induction generalizing entry with
  | step node ih =>
    obtain ⟨address, part⟩ := entry
    rw [inventory_eq, List.mem_cons, List.mem_flatMap]
    rcases address with _ | ⟨k, address⟩
    · simp [part?, Entry.under, eq_comm]
    · simp only [List.mem_map, Prod.exists, List.mem_zipIdx_iff_getElem?, part?,
        Option.bind_eq_some_iff]
      constructor
      · rintro (htop | ⟨child, i, hchild, ⟨address', part'⟩, hentry, heq⟩)
        · cases htop
        · cases heq
          exact ⟨child, hchild, (ih child (List.mem_of_getElem? hchild)).1 hentry⟩
      · rintro ⟨child, hchild, hpart⟩
        exact .inr ⟨child, k, hchild, ⟨address, part⟩,
          (ih child (List.mem_of_getElem? hchild)).2 hpart, rfl⟩

/-- The addresses of an inventory grow, in lexicographic order. -/
theorem pairwise_inventory (node : Node) :
    node.inventory.Pairwise fun entry other => entry.address < other.address := by
  induction node using Node.induction with
  | step node ih =>
    have hnumbers : node.children.zipIdx.Pairwise fun child other => child.2 < other.2 := by
      rw [← List.pairwise_map, List.zipIdx_map_snd]
      exact List.pairwise_lt_range' 1
    rw [inventory_eq, List.pairwise_cons, List.pairwise_flatMap]
    refine ⟨fun entry hentry => ?_, fun child hchild => ?_, hnumbers.imp fun hlt => ?_⟩
    · obtain ⟨child, -, hentry⟩ := List.mem_flatMap.1 hentry
      obtain ⟨below, -, rfl⟩ := List.mem_map.1 hentry
      exact List.nil_lt_cons _ _
    · rw [List.pairwise_map]
      exact (ih child.1 (List.fst_mem_of_mem_zipIdx hchild)).imp fun hlt =>
        List.cons_lt_cons_iff.2 (.inr ⟨rfl, hlt⟩)
    · rintro entry hentry other hother
      obtain ⟨below, -, rfl⟩ := List.mem_map.1 hentry
      obtain ⟨below', -, rfl⟩ := List.mem_map.1 hother
      exact List.cons_lt_cons_iff.2 (.inl hlt)

/-- No entry stands in two places of an inventory. -/
theorem eq_of_getElem?_inventory {node : Node} {i j : Nat} {entry : Entry}
    (hi : node.inventory[i]? = some entry) (hj : node.inventory[j]? = some entry) : i = j := by
  have hnodup : node.inventory.Nodup := by
    refine node.pairwise_inventory.imp ?_
    rintro entry other hlt rfl
    exact List.lt_irrefl _ hlt
  exact (List.getElem?_inj (List.getElem?_eq_some_iff.1 hi).1 hnodup).1 (hi.trans hj.symm)

/-- The outline has the entries of the inventory, each with the length of its address as its
depth. -/
theorem outline_eq_map_inventory (node : Node) (depth : Nat) :
    node.outline depth =
      node.inventory.map fun entry => (depth + entry.address.length, entry.part) := by
  induction node using Node.induction generalizing depth with
  | step node ih =>
    have hchild : ∀ child ∈ node.children.zipIdx, child.1.outline (depth + 1) =
        (child.1.inventory.map (Entry.under [child.2])).map fun entry =>
          (depth + entry.address.length, entry.part) := by
      intro child hmem
      rw [ih child.1 (List.fst_mem_of_mem_zipIdx hmem), List.map_map]
      refine List.map_congr_left fun entry _ => Prod.ext ?_ rfl
      simp only [Function.comp_apply, Entry.under, List.singleton_append, List.length_cons]
      omega
    rw [outline_eq, inventory_eq, List.map_cons, List.map_flatMap, ← List.flatMap_congr hchild]
    conv_lhs => rw [← List.zipIdx_map_fst 0 node.children, List.flatMap_map]
    rfl

/-- There are as many entries as nodes. -/
theorem length_inventory (node : Node) : node.inventory.length = node.size := by
  rw [← node.length_outline 0, outline_eq_map_inventory, List.length_map]

/-! ### Entries of a part -/

/-- The inventory of a part stands in that of the tree. -/
theorem inventory_isInfix {node part : Node} {address : List Nat}
    (h : node.part? address = some part) :
    part.inventory.map (.under address) <:+: node.inventory := by
  induction address generalizing node with
  | nil =>
    cases h
    exact ⟨[], [], by rw [Entry.under_nil, List.map_id, List.append_nil, List.nil_append]⟩
  | cons k address ih =>
    obtain ⟨child, hchild, hpart⟩ := Option.bind_eq_some_iff.1 h
    have hbelow := (ih hpart).map (Entry.under [k])
    rw [List.map_map, Entry.under_comp_under, List.singleton_append] at hbelow
    have hmem : (child, k) ∈ node.children.zipIdx := List.mem_zipIdx_iff_getElem?.2 hchild
    rw [inventory_eq node, List.flatMap_def]
    refine (hbelow.trans ?_).trans (List.suffix_cons _ _).isInfix
    exact List.infix_of_mem_flatten (List.mem_map.2 ⟨_, hmem, rfl⟩)

/-- The entries from that of a part on, as many as the part has nodes, are those of the part. -/
theorem take_drop_inventory {node : Node} {i : Nat} {entry : Entry}
    (h : node.inventory[i]? = some entry) :
    (node.inventory.drop i).take entry.part.size =
      entry.part.inventory.map (.under entry.address) := by
  have hpart := mem_inventory.1 (List.mem_of_getElem? h)
  obtain ⟨before, behind, hsplit⟩ := inventory_isInfix hpart
  -- the entry is the first of its part, and there is no second one like it
  have hfirst : node.inventory[before.length]? = some entry := by
    rw [← hsplit, inventory_eq]
    simp [Entry.under]
  rw [eq_of_getElem?_inventory h hfirst, ← hsplit, List.append_assoc, List.drop_left,
    ← length_inventory, ← List.length_map (Entry.under entry.address), List.take_left]

/-- The entries of a part and of what is below it are consecutive. They are as many as the part has
nodes, and its own is the first. -/
theorem address_prefix_iff {node : Node} {i j : Nat} {entry other : Entry}
    (h : node.inventory[i]? = some entry) (hother : node.inventory[j]? = some other) :
    entry.address <+: other.address ↔ i ≤ j ∧ j < i + entry.part.size := by
  have hblock := take_drop_inventory h
  constructor
  · rintro ⟨address, haddress⟩
    -- what is left of the longer address leads from the part to the other one
    have hpart := mem_inventory.1 (List.mem_of_getElem? h)
    have hbelow := mem_inventory.1 (List.mem_of_getElem? hother)
    rw [← haddress, part?_append, hpart, Option.bind_some] at hbelow
    have hmem : other ∈ (node.inventory.drop i).take entry.part.size := by
      rw [hblock, List.mem_map]
      exact ⟨⟨address, other.part⟩, mem_inventory.2 hbelow, by rw [Entry.under, haddress]⟩
    obtain ⟨k, hk⟩ := List.getElem?_of_mem hmem
    rw [List.getElem?_take, List.getElem?_drop] at hk
    obtain ⟨hlt, hk⟩ := Option.ite_none_right_eq_some.1 hk
    have hj : i + k = j := eq_of_getElem?_inventory hk hother
    omega
  · rintro ⟨hle, hlt⟩
    have hmem : other ∈ entry.part.inventory.map (.under entry.address) := by
      rw [← hblock]
      refine List.mem_of_getElem? (i := j - i) ?_
      rw [List.getElem?_take_of_lt (by omega), List.getElem?_drop, Nat.add_sub_cancel' hle, hother]
    obtain ⟨below, -, rfl⟩ := List.mem_map.1 hmem
    exact List.prefix_append _ _

/-- The outline of a part stands in that of the tree, from where it begins on. -/
theorem take_drop_outline {node : Node} {i : Nat} {entry : Entry}
    (h : node.inventory[i]? = some entry) (depth : Nat) :
    ((node.outline depth).drop i).take entry.part.size =
      entry.part.outline (depth + entry.address.length) := by
  rw [outline_eq_map_inventory, ← List.map_drop, ← List.map_take, take_drop_inventory h,
    outline_eq_map_inventory, List.map_map]
  refine List.map_congr_left fun below _ => Prod.ext ?_ rfl
  simp only [Function.comp_apply, Entry.under, List.length_append]
  omega

end Node

/-! ### Reading what is printed -/

/-- A program that was read is well formed. -/
theorem wellFormed_of_parseText {file text : String} {p : Program}
    (h : parseText file text = .ok p) : p.WellFormed := by
  obtain ⟨c, hrun⟩ := parseText_eq_ok_iff.1 h
  obtain ⟨hreads, -⟩ := Parse.readsProgram_of_program hrun
  exact ⟨hreads.formed, isLexeme_of_mem_tokens hreads (map_unplaced_tokens_ofText file text)⟩

/-- What is read from the printed text of a well-formed program has as many nodes. -/
theorem exists_parseText_size {p : Program} (h : p.WellFormed) (file : String) :
    ∃ q, parseText file p.print = .ok q ∧ q.size = p.size := by
  have hunnumbered : ∀ p : Program, p.unnumbered.size = p.size := Program.size_map _ _
  obtain ⟨q, hq, hsame⟩ := exists_parseText_same_number h file
  refine ⟨q, hq, ?_⟩
  rw [← hunnumbered, Program.unnumbered_eq_of_same hsame, hunnumbered, Program.size_regroup,
    ← hunnumbered, Program.unnumbered_number, hunnumbered]

/-- A tree has as many nodes as its outline has entries, one for each address that leads to a part,
in pre-order. From the entry of a part on, as many entries as the part has nodes are the outline of
the part. Exactly these are the entries of the part and of what is below it. If a program that was
read is printed and read again, it has as many nodes as before. -/
theorem Node.counted_once :
    (∀ node : Node,
      (∀ depth, (node.outline depth).length = node.size) ∧
      (∀ depth, node.outline depth =
        node.inventory.map fun entry => (depth + entry.address.length, entry.part)) ∧
      (node.inventory.Pairwise fun entry other => entry.address < other.address) ∧
      (∀ entry, entry ∈ node.inventory ↔ node.part? entry.address = some entry.part) ∧
      ∀ i entry, node.inventory[i]? = some entry →
        (∀ depth, ((node.outline depth).drop i).take entry.part.size =
          entry.part.outline (depth + entry.address.length)) ∧
        ∀ j other, node.inventory[j]? = some other →
          (entry.address <+: other.address ↔ i ≤ j ∧ j < i + entry.part.size)) ∧
    ∀ (file text : String) (p : Program), parseText file text = .ok p →
      ∀ file', ∃ q, parseText file' p.print = .ok q ∧ q.size = p.size := by
  refine ⟨fun node => ⟨fun depth => node.length_outline depth, node.outline_eq_map_inventory,
    node.pairwise_inventory, fun _ => mem_inventory, fun i entry h => ?_⟩, fun file text p h => ?_⟩
  · exact ⟨take_drop_outline h, fun _ _ => address_prefix_iff h⟩
  · exact exists_parseText_size (wellFormed_of_parseText h)

/-- A branch without statements and one with a loop in it, and a program with variables that are not
grouped. -/
theorem Node.counted_once_branch :
    let name : Token := ⟨.ident, "a", .start⟩
    let loop : Stmt := .repeatUntil [.read name] (.name 0 name)
    let node : Node := .stmt (.ifElse (.name 1 name) [] [loop])
    let text := "program p; var a: char; b: real; c: char; begin if b then c := a end."
    (node.inventory[4]? = some ⟨[2, 0], .stmt loop⟩ ∧
      ((node.outline 0).drop 4).take 3 = (Node.stmt loop).outline 2 ∧
      ∀ j other, node.inventory[j]? = some other →
        ([2, 0] <+: other.address ↔ 4 ≤ j ∧ j < 7)) ∧
    ∃ p, parseText "p.pas" text = .ok p ∧
      ∃ q, parseText "q.pas" p.print = .ok q ∧ q.size = p.size := by
  intro name loop node text
  constructor
  · have h : node.inventory[4]? = some ⟨[2, 0], .stmt loop⟩ := by cbv
    obtain ⟨houtline, hentries⟩ := (counted_once.1 node).2.2.2.2 4 _ h
    exact ⟨h, houtline 0, hentries⟩
  · have hrun : (parseText "p.pas" text).toOption.isSome = true := by decide +kernel
    rcases h : parseText "p.pas" text with _ | p
    · rw [h] at hrun
      cases hrun
    · exact ⟨p, rfl, counted_once.2 "p.pas" text p h "q.pas"⟩

end MiniPascal
