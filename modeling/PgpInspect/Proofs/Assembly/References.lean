import Mathlib.Data.List.Forall2
import PgpInspect.Proofs.Assembly.Tracking

/-!
# The pass over records with references

The keys of the pass can also be kept in an arena: a key is a node that knows its subkeys by their
places, the result is a list of places, and two references say where the records that follow go,
`primary` for user IDs and subkeys and `current` for signatures. Each record then writes through
one of these references or adds one node at the end.

`Represents` relates an arena to the state of the pass: the nodes hold its keys in the order of
the packets, the last of them is the one of the open block, and the current reference is where its
focus is. One record preserves this (`Represents.advance`). What lies in front of the open block is
kept because a record changes the nodes of the two references at most
(`Arena.getElem?_advance`). `references_after` draws from it what holds of the two references
behind any records, and that the arena spells the assembled keys.
-/

namespace PgpInspect

/-- A key with references to its subkeys. -/
structure Arena.Node where
  /-- The key without its subkeys. -/
  own : Key
  /-- The places of its subkeys. -/
  subkeys : List Nat := []

/-- The state of the pass with references to keys. -/
structure Arena where
  /-- The keys and subkeys so far, each in its place. -/
  nodes : List Arena.Node := []
  /-- The places of the result. -/
  keys : List Nat := []
  /-- The key that user IDs and subkeys go to. -/
  primary : Option Nat := none
  /-- The key or subkey that signatures go to. -/
  current : Option Nat := none

namespace Arena

/-- A node under a signature, whether or not the signature stops in the middle. -/
def Node.sign (signature : Signature) (node : Node) : Node :=
  { node with own := (node.own.applySignature signature).1 }

/-- A node with one identity more. -/
def Node.identify (identity : Identity) (node : Node) : Node :=
  { node with own := { node.own with identities := node.own.identities ++ [identity] } }

/-- A node with one subkey more. -/
def Node.adopt (sub : Nat) (node : Node) : Node := { node with subkeys := node.subkeys ++ [sub] }

/-- Changes the node that a reference points to. -/
def write (nodes : List Node) (reference : Option Nat) (change : Node → Node) : List Node :=
  match reference with
  | none => nodes
  | some place => nodes.modify place change

/-- Takes a record. -/
def advance (arena : Arena) : PacketRecord → Arena
  | .publicKey key =>
    let place := arena.nodes.length
    if key.subkey then
      if arena.primary.isNone then arena
      else
        { arena with
          nodes := write arena.nodes arena.primary (.adopt place) ++ [⟨Assembly.keyOf key, []⟩]
          current := some place }
    else
      { nodes := arena.nodes ++ [⟨Assembly.keyOf key, []⟩]
        keys := arena.keys ++ [place]
        primary := some place
        current := some place }
  | .userId userId =>
    { arena with nodes := write arena.nodes arena.primary (.identify userId.identity) }
  | .signature signature =>
    { arena with nodes := write arena.nodes arena.current (.sign signature) }
  | .malformed tag _ =>
    if Assembly.isKeyTag tag then
      { arena with
        primary := if Assembly.isPrimaryTag tag then none else arena.primary
        current := none }
    else arena
  | .other _ => arena

/-- Takes records. -/
def after (arena : Arena) (records : List PacketRecord) : Arena := records.foldl advance arena

/-- The key at a place, with subkeys up to a depth. A reference to nothing gives none. -/
def keyAt (nodes : List Node) : (depth place : Nat) → Option Key
  | 0, _ => none
  | depth + 1, place => do
    let node ← nodes[place]?
    let subkeys ← node.subkeys.mapM (keyAt nodes depth)
    return node.own.withParts node.own.identities subkeys

/-- The places of the subkeys of a place. -/
def subkeysAt (nodes : List Node) (place : Nat) : List Nat :=
  (nodes[place]?.map Node.subkeys).getD []

/-- All references from the result on: each key in front of its subkeys. -/
def references (arena : Arena) : List Nat :=
  arena.keys.flatMap fun place => place :: subkeysAt arena.nodes place

/-- What the two references say about the next signature, if a block is open. -/
def focus? (arena : Arena) : Option Focus :=
  arena.primary.map fun place =>
    match arena.current with
    | none => .nothing
    | some current => if current = place then .primary else .newestSubkey

/-- The relation between the two references and the keys. -/
structure IsLinked (arena : Arena) : Prop where
  /-- Signatures go somewhere only if user IDs do, and then to the same key or to the last of its
  subkeys. -/
  current : ∀ current, arena.current = some current → ∃ place, arena.primary = some place ∧
    (current = place ∨ (subkeysAt arena.nodes place).getLast? = some current)
  /-- User IDs go to the last key of the result. -/
  primary : ∀ place, arena.primary = some place → arena.keys.getLast? = some place
  /-- That key is not marked as a subkey. -/
  isSubkey : ∀ place, arena.primary = some place →
    (arena.nodes[place]?.map fun node => node.own.isSubkey) = some false
  /-- It is among the subkeys of no key. -/
  notMem : ∀ place, arena.primary = some place →
    ∀ other ∈ arena.keys, place ∉ subkeysAt arena.nodes other
  /-- There is exactly one reference to each node, in the order of the nodes. -/
  references : arena.references = List.range arena.nodes.length

/-! ## One record writes through the two references -/

variable {nodes nodes' : List Node} {place : Nat}

/-- A write adds and removes no nodes. -/
theorem length_write (nodes : List Node) (reference : Option Nat) (change : Node → Node) :
    (write nodes reference change).length = nodes.length := by
  cases reference with
  | none => rfl
  | some written => exact List.length_modify change nodes written

/-- A write shows where its reference points. -/
theorem getElem?_write {node : Node} (h : nodes[place]? = some node) (change : Node → Node) :
    (write nodes (some place) change)[place]? = some (change node) := by
  rw [write, List.getElem?_modify_eq, h]
  rfl

/-- A write shows in no other place than the one that its reference points to. -/
theorem getElem?_write_some_of_ne {written : Nat} (h : written ≠ place) (change : Node → Node) :
    (write nodes (some written) change)[place]? = nodes[place]? :=
  List.getElem?_modify_ne change nodes h

/-- A write through a reference that need not be set shows in no place but its own. -/
theorem getElem?_write_of_ne {reference : Option Nat} (h : reference ≠ some place)
    (change : Node → Node) : (write nodes reference change)[place]? = nodes[place]? := by
  cases reference with
  | none => rfl
  | some written => exact getElem?_write_some_of_ne (fun heq => h (congrArg some heq)) change

/-- A record leaves every node alone that neither reference points to. -/
theorem getElem?_advance (arena : Arena) (record : PacketRecord)
    (hlt : place < arena.nodes.length) (hprimary : arena.primary ≠ some place)
    (hcurrent : arena.current ≠ some place) :
    (arena.advance record).nodes[place]? = arena.nodes[place]? := by
  cases record with
  | publicKey packet =>
    unfold advance
    dsimp only
    split_ifs
    · rfl
    · rw [List.getElem?_append_left (by rwa [length_write]), getElem?_write_of_ne hprimary]
    · exact List.getElem?_append_left hlt
  | userId userId => exact getElem?_write_of_ne hprimary _
  | signature signature => exact getElem?_write_of_ne hcurrent _
  | malformed tag reason =>
    unfold advance
    dsimp only
    split_ifs <;> rfl
  | other tag => rfl

/-! ## Keys in an arena -/

/-- A place holds a subkey. -/
def HoldsSubkey (nodes : List Node) (sub : Nat) (subkey : Key) : Prop :=
  nodes[sub]? = some ⟨subkey, []⟩ ∧ subkey.subkeys = []

/-- A place and the places of its subkeys hold a key. -/
structure Holds (nodes : List Node) (shape : Nat × List Nat) (key : Key) : Prop where
  /-- The first place holds the key without its subkeys. -/
  own : nodes[shape.1]? = some ⟨key.withParts key.identities [], shape.2⟩
  /-- The others hold the subkeys, in order. -/
  subkeys : List.Forall₂ (HoldsSubkey nodes) shape.2 key.subkeys

/-- The places of keys and their subkeys, in order. -/
def placesOf (shapes : List (Nat × List Nat)) : List Nat :=
  shapes.flatMap fun shape => shape.1 :: shape.2

variable {shape : Nat × List Nat} {shapes : List (Nat × List Nat)} {key : Key} {keys : List Key}

/-- Subkeys are held as long as their places do not change. -/
theorem forall₂_holdsSubkey_of_eq {subs : List Nat} {subkeys : List Key}
    (h : List.Forall₂ (HoldsSubkey nodes) subs subkeys)
    (heq : ∀ sub ∈ subs, nodes'[sub]? = nodes[sub]?) :
    List.Forall₂ (HoldsSubkey nodes') subs subkeys := by
  have hboth := (List.forall₂_and_left subs subkeys).mpr ⟨heq, h⟩
  exact hboth.imp fun sub subkey ⟨hsub, hnode, hnone⟩ => ⟨hsub.trans hnode, hnone⟩

/-- Keys are held as long as their places do not change. -/
theorem forall₂_holds_of_eq (h : List.Forall₂ (Holds nodes) shapes keys)
    (heq : ∀ place ∈ placesOf shapes, nodes'[place]? = nodes[place]?) :
    List.Forall₂ (Holds nodes') shapes keys := by
  have hshapes : ∀ shape ∈ shapes, ∀ place ∈ shape.1 :: shape.2,
      nodes'[place]? = nodes[place]? :=
    fun shape hshape place hplace => heq place (List.mem_flatMap.mpr ⟨shape, hshape, hplace⟩)
  have hboth := (List.forall₂_and_left shapes keys).mpr ⟨hshapes, h⟩
  refine hboth.imp fun shape key ⟨hshape, hholds⟩ => ⟨?_, ?_⟩
  · exact (hshape _ List.mem_cons_self).trans hholds.own
  · exact forall₂_holdsSubkey_of_eq hholds.subkeys fun sub hsub =>
      hshape sub (List.mem_cons_of_mem _ hsub)

/-- What is held in each place can be read from all of them. -/
theorem mapM_eq_some {read : Nat → Option Key} {places : List Nat}
    (h : List.Forall₂ (fun place key => read place = some key) places keys) :
    places.mapM read = some keys := by
  induction h with
  | nil => rfl
  | cons hread _ ih => simp [List.mapM_cons, hread, ih]

/-- A place is read as the key of its node with the subkeys that are read. -/
theorem keyAt_succ {node : Node} {depth : Nat} (hnode : nodes[place]? = some node)
    (hsubkeys : node.subkeys.mapM (keyAt nodes depth) = some keys) :
    keyAt nodes (depth + 1) place = some (node.own.withParts node.own.identities keys) := by
  rw [keyAt, hnode, Option.bind_eq_bind, Option.bind_some, hsubkeys]
  rfl

/-- A key that is held can be read. -/
theorem Holds.keyAt (h : Holds nodes shape key) (depth : Nat) :
    keyAt nodes (depth + 2) shape.1 = some key := by
  have hsubkeys : shape.2.mapM (Arena.keyAt nodes (depth + 1)) = some key.subkeys := by
    refine mapM_eq_some (h.subkeys.imp fun sub subkey ⟨hnode, hnone⟩ => ?_)
    have hleaf : ([] : List Nat).mapM (Arena.keyAt nodes depth) = some subkey.subkeys := by
      rw [hnone]
      rfl
    rw [keyAt_succ hnode hleaf, Key.withParts_self]
  rw [keyAt_succ h.own hsubkeys]
  exact congrArg some key.withParts_self

/-- The places of the subkeys of keys that are held. -/
theorem subkeysAt_of_mem (h : List.Forall₂ (Holds nodes) shapes keys) (hmem : shape ∈ shapes) :
    subkeysAt nodes shape.1 = shape.2 := by
  have hsubs : ∀ shape ∈ shapes, nodes[shape.1]?.map Node.subkeys = some shape.2 := by
    have hboth := h.imp fun shape key hholds =>
      And.intro (congrArg (Option.map Node.subkeys) hholds.own) hholds
    exact ((List.forall₂_and_left shapes keys).mp hboth).1
  rw [subkeysAt, hsubs shape hmem]
  rfl

/-- A list of places that ends somewhere holds subkeys that end there. -/
theorem exists_concat_of_forall₂ {earlier : List Nat} {sub : Nat} {subkeys : List Key}
    (h : List.Forall₂ (HoldsSubkey nodes) (earlier ++ [sub]) subkeys) :
    ∃ others subkey, subkeys = others ++ [subkey] ∧
      List.Forall₂ (HoldsSubkey nodes) earlier others ∧ HoldsSubkey nodes sub subkey := by
  -- Read from the end, the last place comes first.
  have hreverse := List.forall₂_reverse_iff.mpr h
  rw [List.reverse_append, List.reverse_singleton, List.singleton_append,
    List.forall₂_cons_left_iff] at hreverse
  obtain ⟨subkey, others, hsub, hearlier, heq⟩ := hreverse
  refine ⟨others.reverse, subkey, ?_, ?_, hsub⟩
  · rw [← List.reverse_reverse subkeys, heq, List.reverse_cons]
  · rw [← List.reverse_reverse earlier]
    exact List.forall₂_reverse_iff.mpr hearlier

/-- The references to keys that are held are their places. -/
theorem flatMap_subkeysAt (h : List.Forall₂ (Holds nodes) shapes keys) :
    (shapes.map Prod.fst).flatMap (fun place => place :: subkeysAt nodes place) =
      placesOf shapes := by
  rw [List.flatMap_map]
  refine List.flatMap_congr fun shape hmem => ?_
  rw [subkeysAt_of_mem h hmem]

/-! ## Arenas and states of the pass -/

/-- Where the current reference points in an open block, and the focus of the block. -/
inductive Points : Nat × List Nat → Option Nat → Focus → Prop
  /-- To the primary key. -/
  | primary (place : Nat) (subs : List Nat) : Points (place, subs) (some place) .primary
  /-- To the last subkey. -/
  | newestSubkey (place : Nat) (earlier : List Nat) (sub : Nat) :
      Points (place, earlier ++ [sub]) (some sub) .newestSubkey
  /-- Nowhere. -/
  | nothing (place : Nat) (subs : List Nat) : Points (place, subs) none .nothing

/-- Nodes that hold the keys of the pass with a block that is open. -/
structure Opens (nodes : List Node) (shapes : List (Nat × List Nat)) (shape : Nat × List Nat)
    (closed : List Key) (key : Key) : Prop where
  /-- Their places are all places, in order. -/
  places : placesOf (shapes ++ [shape]) = List.range nodes.length
  /-- The closed blocks are held. -/
  closed : List.Forall₂ (Holds nodes) shapes closed
  /-- The key of the open block is held behind them. -/
  opened : Holds nodes shape key
  /-- It is not marked as a subkey. -/
  isSubkey : key.isSubkey = false

/-- The current reference points to the primary key or to the last subkey, if anywhere. -/
theorem Points.eq_or_getLast? {current : Option Nat} {focus : Focus}
    (h : Points shape current focus) (hcurrent : current = some place) :
    place = shape.1 ∨ shape.2.getLast? = some place := by
  cases h with
  | primary first subs => exact .inl (Option.some.inj hcurrent).symm
  | newestSubkey first earlier newest => exact .inr (List.getLast?_concat.trans hcurrent)
  | nothing first subs => cases hcurrent

/-- The arena of a block that is open for the last key. -/
def inBlock (nodes : List Node) (shapes : List (Nat × List Nat)) (shape : Nat × List Nat)
    (current : Option Nat) : Arena :=
  ⟨nodes, (shapes ++ [shape]).map Prod.fst, some shape.1, current⟩

/-- What an arena is to a state of the pass. -/
inductive Represents : Arena → Assembly → Prop
  /-- No block is open, and there are no references. -/
  | outside {nodes : List Node} {shapes : List (Nat × List Nat)} {closed : List Key}
      (hplaces : placesOf shapes = List.range nodes.length)
      (hclosed : List.Forall₂ (Holds nodes) shapes closed) :
      Represents ⟨nodes, shapes.map Prod.fst, none, none⟩ ⟨closed, none⟩
  /-- The block of the last key is open. -/
  | inside {nodes : List Node} {shapes : List (Nat × List Nat)} {shape : Nat × List Nat}
      {closed : List Key} {key : Key} {current : Option Nat} {focus : Focus}
      (hopens : Opens nodes shapes shape closed key) (hpoints : Points shape current focus) :
      Represents (inBlock nodes shapes shape current) ⟨closed, some ⟨key, focus⟩⟩

/-- The places behind one more key. -/
theorem placesOf_concat (shapes : List (Nat × List Nat)) (shape : Nat × List Nat) :
    placesOf (shapes ++ [shape]) = placesOf shapes ++ shape.1 :: shape.2 := by
  rw [placesOf, List.flatMap_append, List.flatMap_singleton, placesOf]

namespace Opens

variable {closed : List Key} {current : Option Nat} {focus : Focus}

/-- The places of an open block are in order, behind those of the closed blocks. -/
theorem pairwise_lt (h : Opens nodes shapes shape closed key) :
    (placesOf shapes ++ shape.1 :: shape.2).Pairwise (· < ·) := by
  rw [← placesOf_concat, h.places]
  exact List.pairwise_lt_range

/-- The places of the closed blocks are in front of the open block. -/
theorem lt_of_mem_placesOf (h : Opens nodes shapes shape closed key)
    (hplace : place ∈ placesOf shapes) : place < shape.1 :=
  (List.pairwise_append.mp h.pairwise_lt).2.2 place hplace shape.1 List.mem_cons_self

/-- The subkeys are behind their key. -/
theorem lt_of_mem_snd (h : Opens nodes shapes shape closed key) (hplace : place ∈ shape.2) :
    shape.1 < place :=
  List.rel_of_pairwise_cons (List.pairwise_append.mp h.pairwise_lt).2.1 hplace

/-- The key of the open block is among the subkeys of no key: those of the keys in front of it are
in front of it as well, and its own are behind it. -/
theorem not_mem_snd (h : Opens nodes shapes shape closed key) {held : Nat × List Nat}
    (hheld : held ∈ shapes ++ [shape]) : shape.1 ∉ held.2 := by
  intro hmem
  rcases List.mem_append.mp hheld with hfront | hlast
  · have hplace : shape.1 ∈ placesOf shapes :=
      List.mem_flatMap.mpr ⟨held, hfront, List.mem_cons_of_mem held.1 hmem⟩
    exact Nat.lt_irrefl _ (h.lt_of_mem_placesOf hplace)
  · rw [List.mem_singleton.mp hlast] at hmem
    exact Nat.lt_irrefl _ (h.lt_of_mem_snd hmem)

/-- The places of the open block are places of nodes. -/
theorem lt_length (h : Opens nodes shapes shape closed key)
    (hplace : place ∈ shape.1 :: shape.2) : place < nodes.length := by
  have hmem : place ∈ List.range nodes.length := by
    rw [← h.places, placesOf_concat]
    exact List.mem_append_right _ hplace
  exact List.mem_range.mp hmem

/-- The current reference points into the open block. -/
theorem le_current (h : Opens nodes shapes shape closed key) (hpoints : Points shape current focus)
    (hcurrent : current = some place) : shape.1 ≤ place := by
  rcases hpoints.eq_or_getLast? hcurrent with rfl | hlast
  · exact Nat.le_refl _
  · exact Nat.le_of_lt (h.lt_of_mem_snd (List.mem_of_getLast? hlast))

/-- A record leaves the closed blocks as they are. -/
theorem closed_advance (h : Opens nodes shapes shape closed key)
    (hpoints : Points shape current focus) (record : PacketRecord) :
    List.Forall₂ (Holds ((inBlock nodes shapes shape current).advance record).nodes)
      shapes closed := by
  -- Neither reference points in front of the open block.
  refine forall₂_holds_of_eq h.closed fun place hplace => ?_
  have hlt := h.lt_of_mem_placesOf hplace
  have hlength := h.lt_length List.mem_cons_self
  apply getElem?_advance
  · exact Nat.lt_trans hlt hlength
  · exact fun heq => Nat.ne_of_gt hlt (Option.some.inj heq)
  · exact fun heq => Nat.not_le_of_gt hlt (h.le_current hpoints heq)

/-- A change of the first node of an open block changes its key, but not the subkeys. -/
theorem write_own (h : Opens nodes shapes shape closed key) {change : Node → Node} {key' : Key}
    (hclosed : List.Forall₂ (Holds (write nodes (some shape.1) change)) shapes closed)
    (hnode : change ⟨key.withParts key.identities [], shape.2⟩ =
      ⟨key'.withParts key'.identities [], shape.2⟩)
    (hsubkeys : key'.subkeys = key.subkeys) (hprimary : key'.isSubkey = key.isSubkey) :
    Opens (write nodes (some shape.1) change) shapes shape closed key' where
  places := by rw [length_write, h.places]
  closed := hclosed
  opened := by
    have hown := getElem?_write h.opened.own change
    refine ⟨hown.trans (congrArg some hnode), ?_⟩
    rw [hsubkeys]
    refine forall₂_holdsSubkey_of_eq h.opened.subkeys fun sub hsub => ?_
    exact getElem?_write_some_of_ne (Nat.ne_of_lt (h.lt_of_mem_snd hsub)) change
  isSubkey := hprimary.trans h.isSubkey

/-- A change of the last node of an open block changes its newest subkey only. -/
theorem write_newest {change : Node → Node} {earlier : List Nat} {sub : Nat} {others : List Key}
    {subkey : Key} (h : Opens nodes shapes (place, earlier ++ [sub]) closed key)
    (hclosed : List.Forall₂ (Holds (write nodes (some sub) change)) shapes closed)
    (hothers : List.Forall₂ (HoldsSubkey nodes) earlier others)
    (hnode : (write nodes (some sub) change)[sub]? = some ⟨subkey, []⟩)
    (hnone : subkey.subkeys = []) :
    Opens (write nodes (some sub) change) shapes (place, earlier ++ [sub]) closed
      { key with subkeys := others ++ [subkey] } where
  places := by rw [length_write, h.places]
  closed := hclosed
  opened := by
    -- The key and its other subkeys are in front of the newest.
    have hlt : place < sub := h.lt_of_mem_snd List.mem_concat_self
    refine ⟨?_, ?_⟩
    · exact (getElem?_write_some_of_ne (Nat.ne_of_gt hlt) change).trans h.opened.own
    · have hearlier : ∀ other ∈ earlier, other < sub := by
        have hsubs := (List.pairwise_append.mp h.pairwise_lt).2.1.of_cons
        exact fun other hother =>
          (List.pairwise_append.mp hsubs).2.2 other hother sub List.mem_cons_self
      have hkept := forall₂_holdsSubkey_of_eq hothers fun other hother =>
        getElem?_write_some_of_ne (Nat.ne_of_gt (hearlier other hother)) change
      exact List.rel_append hkept (.cons ⟨hnode, hnone⟩ .nil)
  isSubkey := h.isSubkey

/-- A new node at the end becomes the newest subkey if the key of an open block adopts it. -/
theorem adopt {subkey : Key} (h : Opens nodes shapes shape closed key)
    (hclosed : List.Forall₂
      (Holds (write nodes (some shape.1) (.adopt nodes.length) ++ [⟨subkey, []⟩])) shapes closed)
    (hnone : subkey.subkeys = []) :
    Opens (write nodes (some shape.1) (.adopt nodes.length) ++ [⟨subkey, []⟩]) shapes
      (shape.1, shape.2 ++ [nodes.length]) closed
      { key with subkeys := key.subkeys ++ [subkey] } where
  places := by
    rw [placesOf_concat, List.length_append, length_write, List.length_singleton, List.range_succ,
      ← h.places, placesOf_concat, List.append_assoc, List.cons_append]
  closed := hclosed
  opened := by
    have hlength := length_write nodes (some shape.1) (.adopt nodes.length)
    have hfront : ∀ place < nodes.length,
        (write nodes (some shape.1) (.adopt nodes.length) ++ [⟨subkey, []⟩])[place]? =
          (write nodes (some shape.1) (.adopt nodes.length))[place]? :=
      fun place hplace => List.getElem?_append_left (by rwa [hlength])
    refine ⟨?_, List.rel_append (forall₂_holdsSubkey_of_eq h.opened.subkeys fun sub hsub => ?_)
      (.cons ⟨?_, hnone⟩ .nil)⟩
    · rw [hfront shape.1 (h.lt_length List.mem_cons_self), getElem?_write h.opened.own]
      rfl
    · rw [hfront sub (h.lt_length (List.mem_cons_of_mem _ hsub)),
        getElem?_write_some_of_ne (Nat.ne_of_lt (h.lt_of_mem_snd hsub))]
    · rw [List.getElem?_append_right (Nat.le_of_eq hlength), hlength, Nat.sub_self]
      rfl
  isSubkey := h.isSubkey

end Opens

/-! ## A step in an open block -/

variable {closed : List Key} {current : Option Nat} {focus : Focus}

/-- A signature leaves the subkeys and the mark of a key as they are. -/
theorem subkeys_applySignature (key : Key) (signature : Signature) :
    (key.applySignature signature).1.subkeys = key.subkeys ∧
      (key.applySignature signature).1.isSubkey = key.isSubkey := by
  rw [Key.applySignature_eq_withTerms]
  exact ⟨rfl, rfl⟩

/-- The node of a key under a signature is that of the key that is signed. -/
theorem sign_ownNode (key : Key) (signature : Signature) (subs : List Nat) :
    Node.sign signature ⟨key.withParts key.identities [], subs⟩ =
      ⟨(key.applySignature signature).1.withParts (key.applySignature signature).1.identities [],
        subs⟩ := by
  have hidentities : (key.applySignature signature).1.identities = key.identities := by
    rw [Key.applySignature_eq_withTerms]
    rfl
  rw [Node.sign, Key.applySignature_withParts, hidentities]

/-- A signature in an open block changes the key that the current reference points to. -/
theorem represents_signature (h : Opens nodes shapes shape closed key)
    (hpoints : Points shape current focus) (signature : Signature) :
    Represents ((inBlock nodes shapes shape current).advance (.signature signature))
      ⟨closed, some (Block.extend ⟨key, focus⟩ (.signature signature))⟩ := by
  have hclosed := h.closed_advance hpoints (.signature signature)
  cases hpoints with
  | primary place subs =>
    obtain ⟨hsubkeys, hprimary⟩ := subkeys_applySignature key signature
    have hnode := sign_ownNode key signature subs
    exact .inside (h.write_own hclosed hnode hsubkeys hprimary) (.primary place subs)
  | newestSubkey place earlier sub =>
    obtain ⟨others, subkey, heq, hothers, hnode, hnone⟩ := exists_concat_of_forall₂ h.opened.subkeys
    have hsigned := getElem?_write hnode (.sign signature)
    have hnone' : (subkey.applySignature signature).1.subkeys = [] :=
      (subkeys_applySignature subkey signature).1.trans hnone
    have hextend : Block.extend ⟨key, .newestSubkey⟩ (.signature signature) =
        ⟨{ key with subkeys := others ++ [(subkey.applySignature signature).1] },
          .newestSubkey⟩ := by
      rw [Block.extend, Assembly.sign]
      dsimp only
      rw [heq, Ownership.signNewest_concat]
    rw [hextend]
    exact .inside (h.write_newest hclosed hothers hsigned hnone') (.newestSubkey place earlier sub)
  | nothing place subs =>
    exact .inside h (.nothing place subs)

/-- A user ID in an open block adds an identity to its key. -/
theorem represents_userId (h : Opens nodes shapes shape closed key)
    (hpoints : Points shape current focus) (userId : UserId) :
    Represents ((inBlock nodes shapes shape current).advance (.userId userId))
      ⟨closed, some (Block.extend ⟨key, focus⟩ (.userId userId))⟩ := by
  have hclosed := h.closed_advance hpoints (.userId userId)
  exact .inside (h.write_own hclosed rfl rfl rfl) hpoints

/-- A subkey in an open block is a new node at the end, and the last subkey of its key. -/
theorem represents_subkey (h : Opens nodes shapes shape closed key)
    (hpoints : Points shape current focus) {packet : PublicKey} (hsub : packet.subkey = true) :
    Represents ((inBlock nodes shapes shape current).advance (.publicKey packet))
      ⟨closed, some (Block.extend ⟨key, focus⟩ (.publicKey packet))⟩ := by
  have hclosed := h.closed_advance hpoints (.publicKey packet)
  have hadvance : (inBlock nodes shapes shape current).advance (.publicKey packet) =
      inBlock (write nodes (some shape.1) (.adopt nodes.length) ++ [⟨Assembly.keyOf packet, []⟩])
        shapes (shape.1, shape.2 ++ [nodes.length]) (some nodes.length) := by
    simp [advance, inBlock, hsub]
  rw [hadvance] at hclosed ⊢
  exact .inside (h.adopt hclosed rfl) (.newestSubkey shape.1 shape.2 nodes.length)

/-- A record that does not close an open block is taken as the pass takes it. -/
theorem represents_extend (h : Opens nodes shapes shape closed key)
    (hpoints : Points shape current focus) {record : PacketRecord}
    (hopens : record.opensBlock = false) :
    Represents ((inBlock nodes shapes shape current).advance record)
      ⟨closed, some (Block.extend ⟨key, focus⟩ record)⟩ := by
  cases record with
  | publicKey packet =>
    have hsub : packet.subkey = true := by simpa [PacketRecord.opensBlock] using hopens
    exact represents_subkey h hpoints hsub
  | userId userId => exact represents_userId h hpoints userId
  | signature signature => exact represents_signature h hpoints signature
  | malformed tag reason =>
    have hprimary : Assembly.isPrimaryTag tag = false := hopens
    by_cases htag : Assembly.isKeyTag tag = true
    · -- The lost key is a subkey, so the block stays open and only signatures have no place to go.
      have hadvance : (inBlock nodes shapes shape current).advance (.malformed tag reason) =
          inBlock nodes shapes shape none := by
        simp [advance, inBlock, htag, hprimary]
      rw [hadvance, Block.extend, if_pos htag]
      exact .inside h (.nothing shape.1 shape.2)
    · rw [advance, if_neg htag, Block.extend, if_neg htag]
      exact .inside h hpoints
  | other tag => exact .inside h hpoints

/-! ## All steps -/

/-- The keys of a state that is represented are held, and there are no other nodes. -/
theorem Represents.exists_shapes {arena : Arena} {assembly : Assembly}
    (h : Represents arena assembly) :
    ∃ shapes : List (Nat × List Nat), arena.keys = shapes.map Prod.fst ∧
      placesOf shapes = List.range arena.nodes.length ∧
      List.Forall₂ (Holds arena.nodes) shapes assembly.keys := by
  cases h with
  | outside hplaces hclosed =>
    refine ⟨_, rfl, hplaces, ?_⟩
    rw [Assembly.keys, Option.map_none, Option.toList_none, List.append_nil]
    exact hclosed
  | inside hopens hpoints =>
    exact ⟨_, rfl, hopens.places, List.rel_append hopens.closed (.cons hopens.opened .nil)⟩

/-- A record that closes the block before it leaves its nodes, and a primary key adds one. -/
theorem Represents.advance_of_opensBlock {arena : Arena} {assembly : Assembly}
    (h : Represents arena assembly) {record : PacketRecord} (hopens : record.opensBlock = true) :
    Represents (arena.advance record) (assembly.advance record) := by
  obtain ⟨shapes, hkeys, hplaces, hholds⟩ := h.exists_shapes
  rw [Assembly.advance_of_opensBlock hopens]
  cases record with
  | publicKey packet =>
    have hsub : packet.subkey = false := by simpa [PacketRecord.opensBlock] using hopens
    have hadvance : arena.advance (.publicKey packet) =
        inBlock (arena.nodes ++ [⟨Assembly.keyOf packet, []⟩]) shapes (arena.nodes.length, [])
          (some arena.nodes.length) := by
      simp [advance, inBlock, hsub, hkeys]
    rw [hadvance]
    refine .inside ⟨?_, ?_, ⟨List.getElem?_concat_length, .nil⟩, hsub⟩ (.primary _ _)
    · rw [placesOf_concat, hplaces, List.length_append, List.length_singleton, List.range_succ]
    · refine forall₂_holds_of_eq hholds fun place hplace => ?_
      rw [hplaces, List.mem_range] at hplace
      exact List.getElem?_append_left hplace
  | malformed tag reason =>
    have hprimary : Assembly.isPrimaryTag tag = true := hopens
    have hadvance : arena.advance (.malformed tag reason) =
        ⟨arena.nodes, shapes.map Prod.fst, none, none⟩ := by
      simp [advance, Assembly.isKeyTag, hprimary, hkeys]
    rw [hadvance]
    exact .outside hplaces hholds
  | userId userId => cases hopens
  | signature signature => cases hopens
  | other tag => cases hopens

/-- Without references a record that does not close the block before it has nowhere to go. -/
theorem advance_of_not_opensBlock {record : PacketRecord} (hopens : record.opensBlock = false)
    (nodes : List Node) (keys : List Nat) :
    advance ⟨nodes, keys, none, none⟩ record = ⟨nodes, keys, none, none⟩ := by
  cases record with
  | publicKey packet =>
    have hsub : packet.subkey = true := by simpa [PacketRecord.opensBlock] using hopens
    simp [advance, hsub]
  | userId userId => rfl
  | signature signature => rfl
  | malformed tag reason =>
    unfold advance
    dsimp only
    rw [ite_self, ite_self]
  | other tag => rfl

/-- One record is taken as the pass takes it. -/
theorem Represents.advance {arena : Arena} {assembly : Assembly} (h : Represents arena assembly)
    (record : PacketRecord) : Represents (arena.advance record) (assembly.advance record) := by
  cases hopens : record.opensBlock with
  | true => exact h.advance_of_opensBlock hopens
  | false =>
    rw [Assembly.advance_of_not_opensBlock hopens]
    cases h with
    | outside hplaces hclosed =>
      rw [Arena.advance_of_not_opensBlock hopens]
      exact .outside hplaces hclosed
    | inside hopen hpoints => exact represents_extend hopen hpoints hopens

/-- Records are taken as the pass takes them. -/
theorem represents_after (records : List PacketRecord) :
    Represents (({} : Arena).after records) (({} : Assembly).after records) := by
  induction records using List.reverseRecOn with
  | nil => exact .outside rfl .nil
  | append_singleton records record ih =>
    rw [Assembly.after_concat, after, List.foldl_append]
    exact ih.advance record

/-! ## The references behind any records -/

/-- The references of an arena that represents a state are linked to its keys. -/
theorem Represents.isLinked {arena : Arena} {assembly : Assembly} (h : Represents arena assembly) :
    arena.IsLinked := by
  have hreferences : arena.references = List.range arena.nodes.length := by
    obtain ⟨shapes, hkeys, hplaces, hholds⟩ := h.exists_shapes
    rw [references, hkeys, flatMap_subkeysAt hholds, hplaces]
  cases h with
  | outside hplaces hclosed =>
    exact ⟨nofun, nofun, nofun, nofun, hreferences⟩
  | @inside nodes shapes shape closed key current focus hopens hpoints =>
    have hholds := List.rel_append hopens.closed (.cons hopens.opened .nil)
    have hsubs : subkeysAt nodes shape.1 = shape.2 :=
      subkeysAt_of_mem hholds List.mem_concat_self
    unfold inBlock at hreferences ⊢
    constructor
    case current =>
      intro sub hcurrent
      refine ⟨shape.1, rfl, ?_⟩
      dsimp only
      rw [hsubs]
      exact hpoints.eq_or_getLast? hcurrent
    case primary =>
      intro place hprimary
      dsimp only at hprimary ⊢
      rw [List.map_append, List.map_singleton, List.getLast?_concat, hprimary]
    case isSubkey =>
      intro place hprimary
      cases hprimary
      dsimp only
      rw [hopens.opened.own]
      exact congrArg some hopens.isSubkey
    case notMem =>
      intro place hprimary other hother hplace
      cases hprimary
      obtain ⟨held, hheld, rfl⟩ := List.mem_map.mp hother
      rw [subkeysAt_of_mem hholds hheld] at hplace
      exact hopens.not_mem_snd hheld hplace
    case references => exact hreferences

/-- The references of an arena that represents a state are where its focus is. -/
theorem Represents.focus?_eq {arena : Arena} {assembly : Assembly}
    (h : Represents arena assembly) : arena.focus? = assembly.block.map Block.focus := by
  cases h with
  | outside hplaces hclosed => rfl
  | inside hopens hpoints =>
    cases hpoints with
    | primary place subs => exact congrArg some (if_pos rfl)
    | newestSubkey place earlier sub =>
      have hlt : place < sub := hopens.lt_of_mem_snd List.mem_concat_self
      exact congrArg some (if_neg (Nat.ne_of_gt hlt))
    | nothing place subs => rfl

/-- An arena that represents a state spells its keys. -/
theorem Represents.mapM_keyAt {arena : Arena} {assembly : Assembly}
    (h : Represents arena assembly) (depth : Nat) :
    arena.keys.mapM (keyAt arena.nodes (depth + 2)) = some assembly.keys := by
  obtain ⟨shapes, hkeys, -, hholds⟩ := h.exists_shapes
  rw [hkeys]
  refine mapM_eq_some (List.forall₂_map_left_iff.mpr ?_)
  exact hholds.imp fun shape key hkey => hkey.keyAt depth

/-- Behind any records the two references are linked to the keys as `IsLinked` says, they are where
the focus of the pass is, and the next record leaves every node alone that neither of them points
to. The nodes spell the keys that are assembled. -/
theorem references_after (records : List PacketRecord) :
    (after {} records).IsLinked ∧
      (after {} records).focus? = (({} : Assembly).after records).block.map Block.focus ∧
      (∀ (record : PacketRecord) (place : Nat), place < (after {} records).nodes.length →
        (after {} records).primary ≠ some place → (after {} records).current ≠ some place →
        (after {} (records ++ [record])).nodes[place]? = (after {} records).nodes[place]?) ∧
      ∀ depth, (after {} records).keys.mapM (keyAt (after {} records).nodes (depth + 2)) =
        some (assembleKeys records).1 := by
  have hrepresents := represents_after records
  refine ⟨hrepresents.isLinked, hrepresents.focus?_eq, ?_, ?_⟩
  · intro record place hlt hprimary hcurrent
    rw [after, List.foldl_append]
    exact getElem?_advance _ record hlt hprimary hcurrent
  · intro depth
    rw [Assembly.assembleKeys_fst, hrepresents.mapM_keyAt]

end Arena

end PgpInspect
