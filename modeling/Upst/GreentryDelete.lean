import Upst.GreentryRotate

/-!
The deletion. The search leaves the path to the node on the stack; the node, or a
neighbour whose record it takes over, is cut out; and the loop of step 3 walks the stack
upwards with a subtree that is one lower than the balances along the path say.
-/

namespace Upst.Greentry

open Avl Avl.BinTree Bytes

set_option autoImplicit false

section Search

/-- The entries that the nodes of a path push. -/
def pushed (path : Path) (stack : List (Option Nat)) : List (Option Nat) :=
  path.map (fun frame => some frame.label.index) ++ stack

theorem pushed_nil (stack : List (Option Nat)) : pushed [] stack = stack := rfl

theorem pushed_append (inner outside : Path) (stack : List (Option Nat)) :
    pushed (inner ++ outside) stack = pushed inner (pushed outside stack) := by
  rw [pushed, List.map_append, List.append_assoc]
  rfl

theorem pushed_length (path : Path) (stack : List (Option Nat)) :
    (pushed path stack).length = path.length + stack.length := by
  rw [pushed, List.length_append, List.length_map]

theorem delete_search_spec {tuple : Tuples} {key : GreentryKey} {fuel : Nat} (path : Path)
    {sub : BinTree Rec} (bound : sub.height < fuel) (room : path.length + sub.height < 100)
    (holds : Holds tuple sub) (nodup : (indices sub).Nodup)
    (sorted : (plug path sub).Sorted Rec.rank) (located : Located Rec.rank (rank key) path) :
    ((∃ inner left label bf right, sub = plug inner (.node left label bf right) ∧
        label.key = key ∧ Located Rec.rank (rank key) (inner ++ path) ∧
        deleteSearch tuple key fuel (link sub) (headIndex path) (pushed path [none]) =
          some (.ok (label.index, headIndex (inner ++ path),
            some label.index :: pushed (inner ++ path) [none])))) ∨
    (∃ inner, sub = plug inner .nil ∧ Located Rec.rank (rank key) (inner ++ path) ∧
      deleteSearch tuple key fuel (link sub) (headIndex path) (pushed path [none]) =
        some (.error 1)) := by
  induction fuel generalizing path sub with
  | zero => omega
  | succ fuel ih =>
      cases sub with
      | nil => exact Or.inr ⟨[], rfl, located, rfl⟩
      | node left label bf right =>
          obtain ⟨near, far, shape⟩ :=
            node_eq_join (searchSide key label.key) left label bf right
          have lower : near.height < fuel ∧ path.length + 1 + near.height < 100 := by
            rw [shape, height_join] at bound room
            omega
          have fits : (pushed path [none]).length < 100 := by
            rw [pushed_length, List.length_singleton]
            omega
          rw [shape] at holds nodup sorted
          obtain ⟨inside, record, nearHolds, -⟩ := (holds_join ..).mp holds
          obtain ⟨⟨apart, -⟩, nearNodup, -⟩ := nodup_join.mp nodup
          simp only [link_node, deleteSearch, pushStack, if_pos fits, getGreentry_some inside,
            Option.bind_eq_bind, Option.bind_some, record, stored_key, stored_child]
          by_cases found : memcmpKey key label.key = 0
          · refine Or.inl ⟨[], left, label, bf, right, rfl, ?_, located, if_pos found⟩
            exact ((memcmpKey_rank _ _).2.1.mp found).symm
          · rw [if_neg found, if_neg (link_ne_self apart)]
            let frame : Frame Rec := ⟨searchSide key label.key, label, bf, far⟩
            have next := located_step sorted located (searchSide_toward found)
            rcases ih (frame :: path) lower.1 lower.2 nearHolds nearNodup sorted next with
              ⟨inner, left', low, bf', right', fill, same, place, result⟩ |
              ⟨inner, fill, place, result⟩
            · refine Or.inl ⟨inner ++ [frame], left', low, bf', right', ?_, same, ?_, ?_⟩
              · rw [plug_append, ← fill, shape]
                rfl
              · rw [List.append_assoc]
                exact place
              · rw [List.append_assoc]
                exact result
            · refine Or.inr ⟨inner ++ [frame], ?_, ?_, result⟩
              · rw [plug_append, ← fill, shape]
                rfl
              · rw [List.append_assoc]
                exact place

theorem extreme_loop_spec {tuple : Tuples} {side : Side} {fuel : Nat} (inner : Path)
    {stack : List (Option Nat)} {tree : BinTree Rec} {del : Nat} (start : link tree = some del)
    (bound : tree.height < fuel) (room : inner.length + stack.length + tree.height ≤ 100)
    (holds : Holds tuple tree) :
    ∃ deeper label bf far, tree = plug deeper (join side .nil label bf far) ∧
      (∀ frame ∈ deeper, frame.side = side) ∧
      extremeLoop tuple side fuel del (headIndex inner) (pushed inner stack) =
        some (label.index, headIndex (deeper ++ inner), pushed (deeper ++ inner) stack) := by
  induction fuel generalizing inner tree del with
  | zero => omega
  | succ fuel ih =>
      cases tree with
      | nil => cases start
      | node left label bf right =>
          obtain ⟨near, far, shape⟩ := node_eq_join side left label bf right
          rw [shape] at start bound room holds ⊢
          obtain ⟨inside, record, nearHolds, -⟩ := (holds_join ..).mp holds
          rw [link_join, Option.some.injEq] at start
          subst start
          rw [height_join] at bound room
          cases below : link near with
          | none =>
              obtain rfl := link_eq_none.mp below
              refine ⟨[], label, bf, far, rfl, by simp, ?_⟩
              simp only [extremeLoop, record, stored_child, below]
              rfl
          | some next =>
              have fits : (pushed inner stack).length < 100 := by
                rw [pushed_length]
                omega
              let frame : Frame Rec := ⟨side, label, bf, far⟩
              obtain ⟨deeper, low, lowBf, lowFar, fill, sides, result⟩ :=
                ih (frame :: inner) below (by omega) (by rw [List.length_cons]; omega) nearHolds
              refine ⟨deeper ++ [frame], low, lowBf, lowFar, ?_, ?_, ?_⟩
              · rw [plug_append, ← fill]
                rfl
              · intro other member
                rcases List.mem_append.mp member with inDeeper | here
                · exact sides other inDeeper
                · rw [List.mem_singleton.mp here]
              · rw [List.append_assoc]
                simp only [extremeLoop, record, stored_child, below, pushStack, if_pos fits]
                rw [← below, getGreentry_link nearHolds, below]
                exact result

end Search

section Rebalance

theorem delete_pindex_spec {tuple : Tuples} {path : Path} {old : Nat}
    (holds : HoldsPath tuple path (some old)) (outside : old ∉ pathIndices path) :
    deletePindex tuple (headIndex path) old = some (placeOf path) := by
  cases path with
  | nil => rfl
  | cons frame rest =>
      have record := holds.2.1
      have far := far_link_ne outside
      simp only [headIndex, placeOf, List.head?_cons, Option.map_some, deletePindex, record]
      cases side : frame.side with
      | left => simp [stored, far]
      | right => simp [stored]

/-- One turn of the loop at a node whose subtree on `frame.side` is lower than its balance
says: the node is balanced afterwards, and lower itself exactly when the loop goes on. -/
theorem rebalance_step_spec {tbl : GreentryTable} {frame : Frame Rec} {rest : Path}
    {hole : BinTree Rec} (root : tbl.root = link (plug (frame :: rest) hole))
    (holds : Holds tbl.tuple (plug (frame :: rest) hole))
    (nodup : (indices (plug (frame :: rest) hole)).Nodup) (holeOk : hole.HeightBalanced)
    (pathOk : PathBalanced (frame :: rest) (hole.height + 1)) :
    ∃ goesOn result new,
      rebalanceStep frame.side tbl frame.label.index (headIndex rest) = some (goesOn, result) ∧
      Carries tbl result (plug (frame :: rest) hole) (plug rest new) ∧ new.HeightBalanced ∧
      new.toList = (frame.fill hole).toList ∧
      ((goesOn = false ∧ new.height = 1 + max (hole.height + 1) frame.far.height) ∨
        (goesOn = true ∧ new.height + 1 = 1 + max (hole.height + 1) frame.far.height)) := by
  rw [plug, Frame.fill] at root holds nodup ⊢
  obtain ⟨nodeNodup, restNodup, apartPath⟩ := plug_nodup nodup
  obtain ⟨nodeHolds, restHolds⟩ := (holds_plug ..).mp holds
  have record := ((holds_join ..).mp nodeHolds).2.1
  rw [link_join] at restHolds
  obtain ⟨factor, low, up, farOk, -⟩ := pathOk
  have nonzero := sign_ne_zero frame.side
  have settle (value : Int)
      (balanced : (join frame.side hole frame.label value frame.far).HeightBalanced) :=
    carries_in_place (set_bf_rebuilt value nodeHolds nodeNodup balanced) root holds nodup
      (link_join ..)
  have sameList (value : Int) :
      (join frame.side hole frame.label value frame.far).toList =
        (join frame.side hole frame.label frame.bf frame.far).toList := by
    cases frame.side <;> rfl
  unfold rebalanceStep
  rw [record, stored_bf]
  rcases factor_cases factor low up with ⟨even, level⟩ | ⟨away, level⟩ | ⟨toward, level⟩
  · have notAway : ¬frame.bf = -frame.side.sign := by omega
    have turned :
        (join frame.side hole frame.label (-frame.side.sign) frame.far).HeightBalanced := by
      refine (balanced_join ..).mpr ⟨?_, ?_, ?_, holeOk, farOk⟩
      · have unit : (hole.height : Int) - frame.far.height = -1 := by omega
        rw [unit, mul_neg_one]
      · cases frame.side <;> decide
      · cases frame.side <;> decide
    refine ⟨false, _, _, ?_, settle _ turned, turned, sameList _, Or.inl ⟨rfl, ?_⟩⟩
    · rw [if_neg notAway, if_pos even]
    · rw [height_join]
      omega
  · have otherSide := join_other frame.side frame.far frame.label frame.bf hole
    rw [← otherSide] at nodeHolds nodeNodup
    obtain ⟨changed, top, lower, new, rotated, rebuilt, high⟩ :=
      rotation_spec nodeHolds nodeNodup farOk holeOk (by omega)
    rw [otherSide] at rebuilt
    have anchorApart : frame.label.index ∉ pathIndices rest :=
      apartPath _ (mem_indices_join.mpr (Or.inl rfl))
    refine ⟨decide (lower ≠ 0), _, new, ?_, carries_relinked rebuilt root holds nodup
      (link_join ..), rebuilt.balanced, rebuilt.labels, ?_⟩
    · rw [if_pos away, delete_pindex_spec restHolds anchorApart]
      simp only [rotated, Option.bind_eq_bind, Option.bind_some]
    · rcases high with ⟨lowered, high⟩ | ⟨kept, high⟩
      · exact Or.inr ⟨decide_eq_true lowered, by omega⟩
      · exact Or.inl ⟨decide_eq_false (not_not.mpr kept), by omega⟩
  · have notAway : ¬frame.bf = -frame.side.sign := by omega
    have notEven : ¬frame.bf = 0 := by omega
    have turned : (join frame.side hole frame.label 0 frame.far).HeightBalanced := by
      refine (balanced_join ..).mpr ⟨?_, by decide, by decide, holeOk, farOk⟩
      have zero : (hole.height : Int) - frame.far.height = 0 := by omega
      rw [zero, mul_zero]
    refine ⟨true, _, _, ?_, settle _ turned, turned, sameList _, Or.inr ⟨rfl, ?_⟩⟩
    · rw [if_neg notAway, if_neg notEven, if_pos toward]
    · rw [height_join]
      omega

theorem holds_key {tuple : Tuples} {tree : BinTree Rec} {label : Rec} (holds : Holds tuple tree)
    (member : label ∈ tree.toList) : (tuple label.index).key = label.key := by
  induction tree with
  | nil => cases member
  | node left here bf right ihLeft ihRight =>
      obtain ⟨-, record, leftHolds, rightHolds⟩ := holds
      rcases List.mem_append.mp member with inLeft | rest
      · exact ihLeft leftHolds inLeft
      · rcases List.mem_cons.mp rest with rfl | inRight
        · rw [record, stored_key]
        · exact ihRight rightHolds inRight

/-- The side on which the loop goes on, from the sign of a comparison. -/
def signSide (sign : Int) : Side :=
  if sign < 0 then .right else .left

theorem memcmpKey_signSide {above below : GreentryKey} {side : Side}
    (toward : Toward side (rank below) (rank above)) : signSide (memcmpKey above below) = side := by
  obtain ⟨lower, -, higher⟩ := memcmpKey_rank above below
  cases side with
  | left =>
      have more := higher.mpr toward
      exact if_neg (by omega)
  | right => exact if_pos (lower.mpr toward)

theorem rebalance_loop_last {tbl mid : GreentryTable} {index : Nat} {sign : Int}
    {goesOn : Bool} (inside : index < JMM_GREENTRY_RECORD)
    (step : rebalanceStep (signSide sign) tbl index none = some (goesOn, mid)) :
    rebalanceLoop [some index, none] sign tbl = some mid := by
  rw [signSide] at step
  rw [rebalanceLoop, getGreentry_some inside]
  simp only [Option.bind_eq_bind, Option.bind_some, getGreentry, Option.filter_none, step]
  cases goesOn <;> rfl

theorem rebalance_loop_next {tbl mid : GreentryTable} {index above : Nat} {sign : Int}
    {goesOn : Bool} {rest : List (Option Nat)} (inside : index < JMM_GREENTRY_RECORD)
    (aboveIn : above < JMM_GREENTRY_RECORD) (more : rest ≠ [])
    (step : rebalanceStep (signSide sign) tbl index (some above) = some (goesOn, mid)) :
    rebalanceLoop (some index :: some above :: rest) sign tbl =
      if goesOn then
        rebalanceLoop (some above :: rest)
          (memcmpKey (mid.tuple above).key (mid.tuple index).key) mid
      else some mid := by
  rw [signSide] at step
  rw [rebalanceLoop, getGreentry_some inside]
  simp only [Option.bind_eq_bind, Option.bind_some, getGreentry_some aboveIn, step,
    if_neg more]

theorem rebalance_loop_spec {tbl : GreentryTable} {path : Path} {hole : BinTree Rec} {sign : Int}
    (root : tbl.root = link (plug path hole)) (holds : Holds tbl.tuple (plug path hole))
    (nodup : (indices (plug path hole)).Nodup) (sorted : (plug path hole).Sorted Rec.rank)
    (holeOk : hole.HeightBalanced) (pathOk : PathBalanced path (hole.height + 1))
    (start : ∀ frame ∈ path.head?, signSide sign = frame.side) :
    ∃ result new, rebalanceLoop (pushed path [none]) sign tbl = some result ∧
      Carries tbl result (plug path hole) new ∧ new.HeightBalanced := by
  induction path generalizing tbl hole sign with
  | nil => exact ⟨tbl, hole, rfl, Carries.refl root holds, holeOk⟩
  | cons frame rest ih =>
      obtain ⟨goesOn, mid, turned, step, carries, turnedOk, labels, outcome⟩ :=
        rebalance_step_spec root holds nodup holeOk pathOk
      have pathHolds := ((holds_plug ..).mp holds).2
      obtain ⟨-, -, -, -, restOk⟩ := pathOk
      rw [← start frame rfl] at step
      cases rest with
      | nil => exact ⟨mid, turned, rebalance_loop_last pathHolds.1 step, carries, turnedOk⟩
      | cons above rest =>
          have unfolded := @rebalance_loop_next tbl mid frame.label.index above.label.index sign
            goesOn (pushed rest [none]) pathHolds.1 pathHolds.2.2.2.1 (by simp [pushed]) step
          rcases outcome with ⟨rfl, kept⟩ | ⟨rfl, lowered⟩
          · refine ⟨mid, plug (above :: rest) turned, unfolded, carries, ?_⟩
            rw [balanced_plug, kept]
            exact ⟨turnedOk, restOk⟩
          · have midSorted : (plug (above :: rest) turned).Sorted Rec.rank := by
              rw [BinTree.Sorted, carries.labels]
              exact sorted
            have member : frame.label ∈ turned.toList := by
              rw [labels, Frame.fill]
              cases frame.side <;> simp [join, toList]
            have onward : ∀ next ∈ (above :: rest).head?, signSide
                (memcmpKey (mid.tuple above.label.index).key (mid.tuple frame.label.index).key) =
                  next.side := by
              intro next isHead
              obtain rfl : above = next := Option.some.inj isHead
              have midHolds := (holds_plug ..).mp carries.holds
              rw [holds_key midHolds.1 member, midHolds.2.2.1, stored_key]
              exact memcmpKey_signSide (sorted_toward midSorted member)
            obtain ⟨result, new, run, goes, newOk⟩ := ih carries.root carries.holds
              (indices_congr carries.labels ▸ nodup) midSorted turnedOk (lowered ▸ restOk) onward
            exact ⟨result, new, unfolded.trans run, carries.trans goes, newOk⟩

end Rebalance

section Cut

/-- `new` is `old` without the entry of `key`; the record `index` is free. -/
structure Drops (old new : BinTree Rec) (key : GreentryKey) (index : Nat) : Prop where
  entries : ∃ front back body,
    entries old = front ++ (key, body) :: back ∧ entries new = front ++ back
  moved : (indices old).Perm (index :: indices new)

theorem dealloc_apart {tbl : GreentryTable} {index place : Nat} (notIndex : place ≠ index)
    (notFree : place ≠ tbl.free) : (greentryDealloc tbl index).tuple place = tbl.tuple place := by
  simp only [greentryDealloc]
  rw [setChild_apart _ _ _ notFree, setChild_apart _ _ _ notIndex]

/-- The cut tree is stored, and its record goes behind the first free one. -/
theorem dealloc_stores {tbl cut : GreentryTable} {old new : BinTree Rec} {rest : List Nat}
    {key : GreentryKey} {index : Nat} (inv : Stores tbl old rest) (root : cut.root = link new)
    (holds : Holds cut.tuple new) (free : cut.free = tbl.free)
    (same : ∀ place, place ∉ indices old → cut.tuple place = tbl.tuple place)
    (drops : Drops old new key index) :
    Stores (greentryDealloc cut index) new (index :: rest) := by
  obtain ⟨treeNodup, freeNodup, cross⟩ := inv.apart
  rw [drops.moved.nodup_iff, List.nodup_cons] at treeNodup
  have offNew (place : Nat) (isFree : place ∈ tbl.free :: rest) : place ∉ indices new :=
    fun inNew => cross place isFree (drops.moved.mem_iff.mpr (List.mem_cons_of_mem _ inNew))
  have indexNotFree (place : Nat) (isFree : place ∈ tbl.free :: rest) : place ≠ index := by
    rintro rfl
    exact cross place isFree (drops.moved.mem_iff.mpr List.mem_cons_self)
  have freeIndex := indexNotFree tbl.free List.mem_cons_self
  have chain : FreeChain cut.tuple tbl.free rest :=
    freeChain_congr (fun place isFree => same place (cross place isFree)) inv.chain
  refine ⟨root, ?_, ?_, ?_, ?_⟩
  · refine holds_congr (fun place member => ?_) holds
    exact dealloc_apart (ne_of_mem_of_not_mem member treeNodup.1)
      (free ▸ ne_of_mem_of_not_mem member (offNew tbl.free List.mem_cons_self))
  · have head : ((greentryDealloc cut index).tuple cut.free).right = some index := by
      simp [greentryDealloc, GreentryType.withChild]
    have next : ((greentryDealloc cut index).tuple index).right = (cut.tuple tbl.free).right := by
      simp only [greentryDealloc, free]
      rw [setChild_apart _ _ _ (Ne.symm freeIndex), setChild_same]
      rfl
    refine ⟨head, ?_⟩
    cases rest with
    | nil => exact next.trans chain
    | cons other rest =>
        refine ⟨next.trans chain.1, freeChain_congr (fun place member => ?_) chain.2⟩
        apply dealloc_apart (indexNotFree place (List.mem_cons_of_mem _ member))
        rw [free]
        exact ne_of_mem_of_not_mem member (List.nodup_cons.mp freeNodup).1
  · have parts := (drops.moved.append_right (tbl.free :: rest)).symm.trans inv.parts
    refine List.Perm.trans ?_ parts
    show (indices new ++ cut.free :: index :: rest).Perm _
    rw [free]
    exact ((List.Perm.swap _ _ _).append_left _).trans List.perm_middle
  · obtain ⟨front, back, body, oldEntries, newEntries⟩ := drops.entries
    have ordered := (ordered_entries old).mp inv.ordered
    rw [oldEntries] at ordered
    rw [ordered_entries, newEntries]
    exact ordered.sublist ((List.sublist_cons_self _ _).append_left front)

/-- A cut in a subtree is one in the whole tree. -/
theorem Drops.plug {old new : BinTree Rec} {key : GreentryKey} {index : Nat} (path : Path)
    (drops : Drops old new key index) : Drops (Avl.plug path old) (Avl.plug path new) key index := by
  obtain ⟨front, back, body, oldEntries, newEntries⟩ := drops.entries
  refine ⟨⟨(before path).map Rec.entry ++ front, back ++ (after path).map Rec.entry, body,
    ?_, ?_⟩, ?_⟩
  · rw [entries_plug, oldEntries]
    simp
  · rw [entries_plug, newEntries]
    simp
  · have moved := (drops.moved.append_right (pathIndices path)).trans
      ((indices_plug path new).symm.cons index)
    exact (indices_plug path old).trans moved

theorem drops_unlink (side : Side) (tree : BinTree Rec) (label : Rec) (bf : Int) :
    Drops (join side tree label bf .nil) tree label.key label.index := by
  refine ⟨?_, ?_⟩
  · cases side
    · exact ⟨entries tree, [], label.body, by simp [entries, join, toList, Rec.entry], by simp⟩
    · exact ⟨[], entries tree, label.body, by simp [entries, join, toList, Rec.entry], by simp⟩
  · have perm := indices_join side tree .nil label bf
    rw [show indices (.nil : BinTree Rec) = [] from rfl, List.append_nil] at perm
    exact perm

/-- The node takes over the record of the last node on the other side of one subtree. -/
theorem drops_takeover {side : Side} {inner : Path} {label last : Rec} {bf bf' lastBf : Int}
    {tree far : BinTree Rec} (sides : ∀ frame ∈ inner, frame.side = side.other) :
    Drops (join side (plug inner (join side.other .nil last lastBf tree)) label bf far)
      (join side (plug inner tree) { label with key := last.key, body := last.body } bf' far)
      label.key last.index := by
  have ends : (side = .left → after inner = []) ∧ (side = .right → before inner = []) := by
    clear bf bf' lastBf
    induction inner with
    | nil => exact ⟨fun _ => rfl, fun _ => rfl⟩
    | cons frame rest ih =>
        have tail := ih fun other member => sides other (List.mem_cons_of_mem _ member)
        have here := sides frame List.mem_cons_self
        constructor
        · rintro rfl
          rw [after, here]
          exact tail.1 rfl
        · rintro rfl
          rw [before, here]
          exact tail.2 rfl
  refine ⟨?_, ?_⟩
  · cases side with
    | left =>
        refine ⟨(before inner).map Rec.entry ++ entries tree ++ [last.entry], entries far,
          label.body, ?_, ?_⟩
        · simp [entries, join, toList, toList_plug, ends.1, Side.other, Rec.entry]
        · simp [entries, join, toList, toList_plug, ends.1, Rec.entry]
    | right =>
        refine ⟨entries far, last.entry :: entries tree ++ (after inner).map Rec.entry,
          label.body, ?_, ?_⟩
        · simp [entries, join, toList, toList_plug, ends.2, Side.other, Rec.entry]
        · simp [entries, join, toList, toList_plug, ends.2, Rec.entry]
  · have lastPerm : (indices (join side.other .nil last lastBf tree)).Perm
        (last.index :: indices tree) := indices_join ..
    have subPerm := (indices_plug inner _).trans ((lastPerm.append_right (pathIndices inner)).trans
      ((indices_plug inner tree).symm.cons last.index))
    refine (indices_join ..).trans ?_
    refine List.Perm.trans ?_ ((indices_join ..).symm.cons last.index)
    refine ((subPerm.append_right (indices far)).cons label.index).trans ?_
    exact List.Perm.swap _ _ _

end Cut

section Finish

theorem signSide_sign (side : Side) : signSide side.sign = side := by
  cases side <;> rfl

/-- The cut has made the subtree at the end of the path lower: the loop goes up from
there. -/
theorem finish_lower {cut : GreentryTable} {path : Path} {hole : BinTree Rec} {side : Side}
    {rest : List Nat} (stores : Stores cut (plug path hole) rest) (holeOk : hole.HeightBalanced)
    (pathOk : PathBalanced path (hole.height + 1)) (start : ∀ frame ∈ path.head?, side = frame.side) :
    ∃ result new, rebalanceLoop (pushed path [none]) side.sign cut = some result ∧
      Represents result new rest ∧ result.used = cut.used ∧ result.free = cut.free ∧
      content result.tuple = content cut.tuple ∧ entries new = entries (plug path hole) := by
  obtain ⟨result, new, run, carries, newOk⟩ := rebalance_loop_spec stores.root stores.holds
    stores.apart.1 stores.sorted holeOk pathOk
    (fun frame isHead => (signSide_sign side).trans (start frame isHead))
  exact ⟨result, new, run, ⟨stores.carried carries, newOk⟩, carries.used, carries.free,
    carries.content stores.holds, congrArg (List.map Rec.entry) carries.labels⟩

/-- A deletion that has found its node, in the record `slot`. What the callers have in the record that is
freed is in `slot` now. -/
structure Removed (tbl result : GreentryTable) (tree : BinTree Rec) (rest : List Nat)
    (key : GreentryKey) (slot : Nat) : Prop where
  represents : ∃ new index, Represents result new (index :: rest) ∧
    (∃ front back body, entries tree = front ++ (key, body) :: back ∧ entries new = front ++ back) ∧
    content result.tuple = Function.update (content tbl.tuple) slot (content tbl.tuple index)
  used : result.used = tbl.used
  free : result.free = tbl.free

theorem removed_level {tbl result : GreentryTable} {old new : BinTree Rec} {rest : List Nat}
    {key : GreentryKey} {index slot : Nat} (stores : Stores result new (index :: rest))
    (drops : Drops old new key index) (balanced : new.HeightBalanced) (used : result.used = tbl.used)
    (free : result.free = tbl.free)
    (moved : content result.tuple = Function.update (content tbl.tuple) slot (content tbl.tuple index)) :
    Removed tbl result old rest key slot :=
  ⟨⟨new, index, ⟨stores, balanced⟩, drops.entries, moved⟩, used, free⟩

theorem removed_lower {tbl cut : GreentryTable} {old : BinTree Rec} {path : Path}
    {hole : BinTree Rec} {rest : List Nat} {key : GreentryKey} {index slot : Nat} {side : Side}
    (stores : Stores cut (plug path hole) (index :: rest))
    (drops : Drops old (plug path hole) key index) (holeOk : hole.HeightBalanced)
    (pathOk : PathBalanced path (hole.height + 1)) (used : cut.used = tbl.used)
    (free : cut.free = tbl.free)
    (moved : content cut.tuple = Function.update (content tbl.tuple) slot (content tbl.tuple index))
    (start : ∀ frame ∈ path.head?, side = frame.side) :
    ∃ result, rebalanceLoop (pushed path [none]) side.sign cut = some result ∧
      Removed tbl result old rest key slot := by
  obtain ⟨result, new, run, represents, sameUsed, sameFree, contents, same⟩ :=
    finish_lower stores holeOk pathOk start
  refine ⟨result, run, ⟨new, index, represents, ?_, contents.trans moved⟩, sameUsed.trans used,
    sameFree.trans free⟩
  rw [same]
  exact drops.entries

end Finish

section Unlink

theorem unlink_spec {tbl : GreentryTable} {path : Path} {side : Side} {child : BinTree Rec}
    {label : Rec} {bf : Int} {rest : List Nat}
    (inv : Represents tbl (plug path (join side child label bf .nil)) rest)
    (located : Located Rec.rank label.rank path) :
    ∃ result, deleteUnlink tbl label.key label.index (headIndex path) (link child)
        (some label.index :: pushed path [none]) = some result ∧
      Removed tbl result (plug path (join side child label bf .nil)) rest label.key label.index := by
  have drops := (drops_unlink side child label bf).plug path
  obtain ⟨nodeOk, pathOk⟩ := (balanced_plug ..).mp inv.balanced
  have childOk := ((balanced_join ..).mp nodeOk).2.2.2.1
  rw [height_join, height, Nat.max_zero, Nat.add_comm] at pathOk
  obtain ⟨nodeHolds, pathHolds⟩ := (holds_plug ..).mp inv.holds
  have childHolds := ((holds_join ..).mp nodeHolds).2.2.1
  cases path with
  | nil =>
      have stores := @dealloc_stores tbl { tbl with root := link child } _ child rest _ _
        inv.toStores rfl childHolds rfl (fun _ _ => rfl) drops
      refine ⟨_, rfl, removed_level stores drops childOk rfl rfl ?_⟩
      rw [content_dealloc, Function.update_eq_self]
  | cons frame outside =>
      obtain ⟨nodeNodup, pathNodup, apartPath⟩ := plug_nodup inv.apart.1
      have toward := located_toward located List.mem_cons_self
      have frameOff : frame.label.index ∉ indices child := by
        intro inChild
        refine apartPath _ (mem_indices_join.mpr (Or.inr (Or.inl inChild))) ?_
        rw [pathIndices_cons]
        exact List.mem_cons_self
      have cutRoot : tbl.root = link (plug (frame :: outside) child) := by
        rw [inv.root, link_plug, link_plug]
        rfl
      have cutHolds : Holds (setChild tbl.tuple frame.label.index frame.side (link child))
          (plug (frame :: outside) child) := by
        rw [holds_plug]
        refine ⟨holds_congr (fun index member => ?_) childHolds,
          holdsPath_setChild (link child) pathHolds pathNodup⟩
        exact setChild_apart _ _ _ (ne_of_mem_of_not_mem member frameOff)
      have stores := @dealloc_stores tbl
        { tbl with tuple := setChild tbl.tuple frame.label.index frame.side (link child) } _
        (plug (frame :: outside) child) rest _ _ inv.toStores
        cutRoot cutHolds rfl ?_ drops
      · have moved : content (greentryDealloc { tbl with
            tuple := setChild tbl.tuple frame.label.index frame.side (link child) } label.index).tuple =
              Function.update (content tbl.tuple) label.index (content tbl.tuple label.index) := by
          rw [content_dealloc, content_setChild, Function.update_eq_self]
        obtain ⟨result, run, removed⟩ := @removed_lower tbl _ _ _ child rest _ _ _ frame.side
          stores drops childOk pathOk rfl rfl moved (fun head isHead => by cases isHead; rfl)
        refine ⟨result, ?_, removed⟩
        simp only [deleteUnlink, headIndex, List.head?_cons, Option.map_some, pathHolds.2.1,
          stored_key, walkSide_eq toward, List.tail_cons]
        exact run
      · intro place outsideAll
        have offPath := (not_mem_plug outsideAll).2
        rw [pathIndices_cons, List.mem_cons, not_or] at offPath
        exact setChild_apart _ _ _ offPath.1

end Unlink

section Takeover

/-- One record of the array is written, the root of a subtree. -/
theorem holds_root {tuple changed : Tuples} {side : Side} {near far : BinTree Rec} {label : Rec}
    {bf : Int} (inside : label.index < JMM_GREENTRY_RECORD)
    (record : changed label.index = stored side label bf (link near) (link far))
    (nearHolds : Holds tuple near) (farHolds : Holds tuple far)
    (offNear : label.index ∉ indices near) (offFar : label.index ∉ indices far)
    (same : ∀ place, place ≠ label.index → changed place = tuple place) :
    Holds changed (join side near label bf far) := by
  refine (holds_join ..).mpr ⟨inside, record, ?_, ?_⟩
  · exact holds_congr (fun place member => same place (ne_of_mem_of_not_mem member offNear))
      nearHolds
  · exact holds_congr (fun place member => same place (ne_of_mem_of_not_mem member offFar))
      farHolds

/-- The node takes over its child on `side`, which has no child towards the other side. -/
theorem shallow_stores {tbl : GreentryTable} {path : Path} {side : Side} {label child : Rec}
    {tree far : BinTree Rec} {bf childBf : Int} {rest : List Nat}
    (inv : Stores tbl
      (plug path (join side (join side.other .nil child childBf tree) label bf far)) rest) :
    Stores (deleteShallow tbl side label.index child.index)
      (plug path (join side tree { label with key := child.key, body := child.body }
        (bf - side.sign) far)) (child.index :: rest) := by
  obtain ⟨nodeHolds, pathHolds⟩ := (holds_plug ..).mp inv.holds
  obtain ⟨nodeNodup, -, apartPath⟩ := plug_nodup inv.apart.1
  simp only [nodup_join, mem_indices_join, not_or] at nodeNodup
  obtain ⟨⟨⟨differ, -, offTree⟩, offFar⟩, -⟩ := nodeNodup
  obtain ⟨inside, record, childHolds, farHolds⟩ := (holds_join ..).mp nodeHolds
  obtain ⟨childIn, childRecord, -, treeHolds⟩ := (holds_join ..).mp childHolds
  rw [stored_other] at childRecord
  rw [link_join] at record pathHolds
  have offPath := apartPath label.index (mem_indices_join.mpr (Or.inl rfl))
  have childDiffers := Ne.symm differ
  have dataAt : setData tbl.tuple label.index child.index label.index =
      stored side { label with key := child.key, body := child.body } bf (some child.index)
        (link far) := by
    rw [setData_same, record, childRecord, stored_key, stored_body, stored_withData]
  have linkAt : setChild (setData tbl.tuple label.index child.index) label.index side (link tree)
      label.index = stored side { label with key := child.key, body := child.body } bf
        (link tree) (link far) := by
    rw [setChild_same, dataAt, stored_withChild]
  have shape : deleteShallow tbl side label.index child.index = greentryDealloc { tbl with
      tuple := setBf (setChild (setData tbl.tuple label.index child.index) label.index side
        (link tree)) label.index (bf - side.sign) } child.index := by
    simp only [deleteShallow, setData_apart _ _ childDiffers, childRecord, stored_child, linkAt,
      stored_bf]
  have bfAt : setBf (setChild (setData tbl.tuple label.index child.index) label.index side
      (link tree)) label.index (bf - side.sign) label.index = stored side
        { label with key := child.key, body := child.body } (bf - side.sign) (link tree)
        (link far) := by
    rw [setBf_same, linkAt, stored_withBf]
  have written (place : Nat) (apart : place ≠ label.index) :
      setBf (setChild (setData tbl.tuple label.index child.index) label.index side (link tree))
        label.index (bf - side.sign) place = tbl.tuple place := by
    rw [setBf_apart _ _ apart, setChild_apart _ _ _ apart, setData_apart _ _ apart]
  rw [shape]
  refine @dealloc_stores tbl _ _ _ rest _ _ inv ?_ ?_ rfl ?_
    (@drops_takeover side [] label child bf (bf - side.sign) childBf tree far (by simp) |>.plug path)
  · rw [link_plug, link_join]
    exact inv.root.trans (by rw [link_plug, link_join])
  · refine (holds_plug ..).mpr ⟨?_, ?_⟩
    · exact @holds_root tbl.tuple _ side tree far _ _ inside bfAt treeHolds farHolds offTree offFar
        written
    · rw [link_join]
      exact holdsPath_congr (fun place member => written place (ne_of_mem_of_not_mem member offPath))
        pathHolds
  · intro place outside
    have offNode := (not_mem_plug outside).1
    rw [mem_indices_join, not_or] at offNode
    exact written place offNode.1

theorem drops_deep {side : Side} {inner : Path} {label last : Rec} {bf lastBf : Int}
    {tree far : BinTree Rec} (sides : ∀ frame ∈ inner, frame.side = side) :
    Drops (join side.other (plug inner (join side .nil last lastBf tree)) label bf far)
      (join side.other (plug inner tree) { label with key := last.key, body := last.body } bf far)
      label.key last.index := by
  have takeover := @drops_takeover side.other inner label last bf bf lastBf tree far
  rw [other_other] at takeover
  exact takeover sides

theorem pathBalanced_relabel {inner outside : Path} {side : Side} {old new : Rec} {bf : Int}
    {far : BinTree Rec} {height : Nat} :
    PathBalanced (inner ++ ⟨side, old, bf, far⟩ :: outside) height ↔
      PathBalanced (inner ++ ⟨side, new, bf, far⟩ :: outside) height := by
  induction inner generalizing height with
  | nil => rfl
  | cons frame rest ih =>
      simp only [List.cons_append, PathBalanced]
      rw [ih]

/-- The last node on one side of the other subtree is unlinked from its parent `above`, and
its record copied over the one to delete. -/
theorem deep_stores {tbl : GreentryTable} {path deeper : Path} {side : Side} {label last : Rec}
    {above : Frame Rec} {tree far : BinTree Rec} {bf lastBf : Int} {rest : List Nat}
    (sides : ∀ frame ∈ above :: deeper, frame.side = side)
    (inv : Stores tbl (plug path (join side.other
      (plug (above :: deeper) (join side .nil last lastBf tree)) label bf far)) rest) :
    Stores (greentryDealloc { tbl with
        tuple := setData (setChild tbl.tuple above.label.index side (link tree)) label.index
          last.index } last.index)
      (plug path (join side.other (plug (above :: deeper) tree)
        { label with key := last.key, body := last.body } bf far)) (last.index :: rest) := by
  -- the frames from the unlinked node to the root, in the tree as it was
  have whole (tree : BinTree Rec) :
      plug path (join side.other (plug (above :: deeper) tree) label bf far) =
        plug (above :: (deeper ++ ⟨side.other, label, bf, far⟩ :: path)) tree :=
    plug_join ..
  obtain ⟨allNodup, -, -⟩ := inv.apart
  have wholeHolds := inv.holds
  have wholeNodup := allNodup
  rw [whole] at wholeHolds wholeNodup
  obtain ⟨lastNodup, pathNodup, apartPath⟩ := plug_nodup wholeNodup
  obtain ⟨lastHolds, pathHolds⟩ := (holds_plug ..).mp wholeHolds
  obtain ⟨lastIn, lastRecord, -, treeHolds⟩ := (holds_join ..).mp lastHolds
  have offTree (index : Nat) (member : index ∈ indices tree) :
      index ∉ pathIndices (above :: (deeper ++ ⟨side.other, label, bf, far⟩ :: path)) :=
    apartPath index (mem_indices_join.mpr (Or.inr (Or.inr member)))
  have aboveSide := sides above List.mem_cons_self
  have aboveIn : above.label.index ∈
      pathIndices (above :: (deeper ++ ⟨side.other, label, bf, far⟩ :: path)) := by
    rw [pathIndices_cons]
    exact List.mem_cons_self
  have unlinked := holdsPath_setChild (link tree) pathHolds pathNodup
  rw [aboveSide] at unlinked
  have treeStays : Holds (setChild tbl.tuple above.label.index side (link tree)) tree := by
    refine holds_congr (fun index member => setChild_apart _ _ _ ?_) treeHolds
    rintro rfl
    exact offTree _ member aboveIn
  have midHolds := (holds_plug ..).mpr ⟨treeStays, unlinked⟩
  rw [← whole] at midHolds
  obtain ⟨nodeNodup, -, apartAbove⟩ := plug_nodup allNodup
  have offPath := apartAbove label.index (mem_indices_join.mpr (Or.inl rfl))
  obtain ⟨⟨offOld, offFar⟩, -⟩ := nodup_join.mp nodeNodup
  have offNear : label.index ∉ indices (plug (above :: deeper) tree) := by
    intro inNear
    rw [(indices_plug ..).mem_iff, List.mem_append] at inNear offOld
    rw [mem_indices_join] at offOld
    tauto
  have lastDiffers : last.index ≠ label.index := by
    rintro same
    rw [(indices_plug ..).mem_iff, List.mem_append, mem_indices_join, same] at offOld
    exact offOld (Or.inl (Or.inl rfl))
  have lastApart : last.index ≠ above.label.index := by
    rintro same
    exact apartPath last.index (mem_indices_join.mpr (Or.inl rfl)) (same ▸ aboveIn)
  have midNode := ((holds_plug ..).mp midHolds).1
  have midPath := ((holds_plug ..).mp midHolds).2
  rw [link_join] at midPath
  obtain ⟨inside, record, nearHolds, farHolds⟩ := (holds_join ..).mp midNode
  have dataAt : setData (setChild tbl.tuple above.label.index side (link tree)) label.index
      last.index label.index = stored side.other { label with key := last.key, body := last.body }
        bf (link (plug (above :: deeper) tree)) (link far) := by
    rw [setData_same, record, setChild_apart _ _ _ lastApart, lastRecord, stored_key, stored_body,
      stored_withData]
  have written (place : Nat) (apart : place ≠ label.index) :=
    setData_apart (setChild tbl.tuple above.label.index side (link tree)) last.index apart
  refine @dealloc_stores tbl _ _ _ rest _ _ inv ?_ ?_ rfl ?_ ((drops_deep sides).plug path)
  · rw [link_plug, link_join]
    exact inv.root.trans (by rw [link_plug, link_join])
  · refine (holds_plug ..).mpr ⟨?_, ?_⟩
    · exact @holds_root _ _ side.other _ far _ _ inside dataAt nearHolds farHolds offNear offFar
        written
    · rw [link_join]
      exact holdsPath_congr
        (fun place member => written place (ne_of_mem_of_not_mem member offPath)) midPath
  · intro place outside
    have notLabel : place ≠ label.index := by
      rintro rfl
      exact (not_mem_plug outside).1 (mem_indices_join.mpr (Or.inl rfl))
    have notAbove : place ≠ above.label.index := by
      rintro rfl
      rw [whole] at outside
      exact (not_mem_plug outside).2 aboveIn
    exact (written place notLabel).trans (setChild_apart _ _ _ notAbove)

theorem deep_spec {tbl : GreentryTable} {path : Path} {side : Side} {label : Rec}
    {sub far : BinTree Rec} {bf : Int} {rest : List Nat} {del : Nat}
    (inv : Represents tbl (plug path (join side.other sub label bf far)) rest)
    (start : link sub = some del) (deep : (tbl.tuple del).child side ≠ none) :
    ∃ result, deleteDeep tbl side label.index del (some label.index :: pushed path [none]) =
        some result ∧
      Removed tbl result (plug path (join side.other sub label bf far)) rest label.key label.index := by
  have nodeHolds := ((holds_plug ..).mp inv.holds).1
  have subHolds := ((holds_join ..).mp nodeHolds).2.2.1
  have small := (height_path_le path _).trans (Nat.le_of_lt inv.height_bound)
  rw [height_join] at small
  have enough : sub.height < JMM_GREENTRY_RECORD + 1 := by
    rw [JMM_GREENTRY_RECORD]
    omega
  have room : ([] : Path).length + (some label.index :: pushed path [none]).length + sub.height ≤
      100 := by
    rw [List.length_cons, pushed_length, List.length_nil, List.length_singleton]
    omega
  obtain ⟨deeper, last, lastBf, tree, rfl, sides, search⟩ :=
    @extreme_loop_spec tbl.tuple side _ [] _ _ _ start enough room subHolds
  rw [List.append_nil, headIndex_nil, pushed_nil] at search
  cases deeper with
  | nil =>
      have record := ((holds_join ..).mp subHolds).2.1
      rw [plug, link_join, Option.some.injEq] at start
      rw [← start, record, stored_child] at deep
      exact absurd rfl deep
  | cons above deeper =>
      have lastHolds := ((holds_plug ..).mp subHolds).1
      have lastRecord := ((holds_join ..).mp lastHolds).2.1
      have stores := deep_stores sides inv.toStores
      have drops := (@drops_deep side (above :: deeper) label last bf lastBf tree far sides).plug
        path
      have balanced := inv.balanced
      rw [plug_join, balanced_plug, balanced_join, height_join, height, Nat.zero_max] at balanced
      obtain ⟨⟨-, -, -, -, treeOk⟩, pathOk⟩ := balanced
      rw [Nat.add_comm, @pathBalanced_relabel _ _ _ _
        { label with key := last.key, body := last.body }] at pathOk
      rw [@plug_join _ path (above :: deeper) side.other tree
        { label with key := last.key, body := last.body }] at stores drops
      have moved : content (greentryDealloc { tbl with
          tuple := setData (setChild tbl.tuple above.label.index side (link tree)) label.index
            last.index } last.index).tuple =
          Function.update (content tbl.tuple) label.index (content tbl.tuple last.index) := by
        rw [content_dealloc, content_setData, content_setChild]
      obtain ⟨result, run, removed⟩ := @removed_lower tbl _ _ _ tree rest _ _ _ side stores drops
        treeOk pathOk rfl rfl moved
        (fun head isHead => by cases isHead; exact (sides above (by simp)).symm)
      refine ⟨result, ?_, removed⟩
      rw [pushed_append] at run
      rw [deleteDeep, search]
      simp only [headIndex, List.head?_cons, Option.map_some, Option.bind_eq_bind,
        Option.bind_some, lastRecord, stored_child_other]
      exact run

theorem shallow_balanced {side : Side} {label label' child : Rec} {tree far : BinTree Rec}
    {bf childBf : Int}
    (balanced : (join side (join side.other .nil child childBf tree) label bf far).HeightBalanced)
    (notAway : bf ≠ -side.sign) :
    (join side tree label' (bf - side.sign) far).HeightBalanced ∧
      ((bf = 0 ∧ (join side tree label' (bf - side.sign) far).height =
          (join side (join side.other .nil child childBf tree) label bf far).height) ∨
        (bf = side.sign ∧ (join side tree label' (bf - side.sign) far).height + 1 =
          (join side (join side.other .nil child childBf tree) label bf far).height)) := by
  rw [balanced_join, balanced_join, height_join, height, Nat.zero_max] at balanced
  obtain ⟨factor, low, up, ⟨-, -, -, -, treeOk⟩, farOk⟩ := balanced
  simp only [balanced_join, height_join, height, Nat.zero_max]
  rcases factor_cases factor low up with ⟨even, level⟩ | ⟨away, -⟩ | ⟨toward, level⟩
  · subst even
    have down : (tree.height : Int) - far.height = -1 := by omega
    refine ⟨⟨?_, ?_, ?_, treeOk, farOk⟩, Or.inl ⟨rfl, by omega⟩⟩
    · rw [down, zero_sub, mul_neg_one]
    · cases side <;> decide
    · cases side <;> decide
  · exact absurd away notAway
  · subst toward
    have zero : (tree.height : Int) - far.height = 0 := by omega
    refine ⟨⟨?_, by omega, by omega, treeOk, farOk⟩, Or.inr ⟨rfl, by omega⟩⟩
    rw [zero, sub_self, mul_zero]

/-- The takeover of a child, with the loop when the node has become lower. -/
theorem shallow_spec {tbl : GreentryTable} {path : Path} {side : Side} {label child : Rec}
    {tree far : BinTree Rec} {bf childBf : Int} {rest : List Nat}
    (inv : Represents tbl
      (plug path (join side (join side.other .nil child childBf tree) label bf far)) rest)
    (notAway : bf ≠ -side.sign) :
    (bf = 0 ∨ path = [] → Removed tbl (deleteShallow tbl side label.index child.index)
        (plug path (join side (join side.other .nil child childBf tree) label bf far)) rest
        label.key label.index) ∧
      ∀ up, bf = side.sign → (∀ frame ∈ path.head?, up = frame.side) →
        ∃ result, rebalanceLoop (pushed path [none]) up.sign
            (deleteShallow tbl side label.index child.index) = some result ∧
          Removed tbl result
            (plug path (join side (join side.other .nil child childBf tree) label bf far)) rest
            label.key label.index := by
  have stores := shallow_stores inv.toStores
  have moved : content (deleteShallow tbl side label.index child.index).tuple =
      Function.update (content tbl.tuple) label.index (content tbl.tuple child.index) := by
    rw [deleteShallow, content_dealloc, content_setBf, content_setChild, content_setData]
  have drops := (@drops_takeover side [] label child bf (bf - side.sign) childBf tree far
    (by simp)).plug path
  obtain ⟨nodeOk, pathOk⟩ := (balanced_plug ..).mp inv.balanced
  obtain ⟨newOk, levels⟩ := @shallow_balanced side label
    { label with key := child.key, body := child.body } child tree far bf childBf nodeOk notAway
  refine ⟨?_, ?_⟩
  · intro still
    refine removed_level stores drops ((balanced_plug ..).mpr ⟨newOk, ?_⟩) rfl rfl moved
    rcases levels with ⟨-, same⟩ | ⟨toward, -⟩
    · rw [same]
      exact pathOk
    · obtain rfl := still.resolve_left (toward ▸ sign_ne_zero side)
      trivial
  · intro up toward start
    have lower := (levels.resolve_left fun even => sign_ne_zero side (toward ▸ even.1)).2
    exact removed_lower stores drops newOk (lower ▸ pathOk) rfl rfl moved start

theorem near_spec {tbl : GreentryTable} {path : Path} {label leftLabel rightLabel : Rec}
    {leftTree rightTree : BinTree Rec} {bf leftBf rightBf : Int} {rest : List Nat}
    (inv : Represents tbl (plug path (.node (.node leftTree leftLabel leftBf .nil) label bf
      (.node .nil rightLabel rightBf rightTree))) rest)
    (located : Located Rec.rank label.rank path) :
    ∃ result, deleteNear tbl label.key label.index leftLabel.index rightLabel.index
        (headIndex path) (some label.index :: pushed path [none]) = some result ∧
      Removed tbl result (plug path (.node (.node leftTree leftLabel leftBf .nil) label bf
        (.node .nil rightLabel rightBf rightTree))) rest label.key label.index := by
  obtain ⟨inside, record, -⟩ := ((holds_plug ..).mp inv.holds).1
  obtain ⟨-, low, up, -⟩ := ((balanced_plug ..).mp inv.balanced).1
  have onLeft := @shallow_spec tbl path .left label leftLabel leftTree _ bf leftBf rest inv
  have onRight := @shallow_spec tbl path .right label rightLabel rightTree _ bf rightBf rest inv
  simp only [Side.sign] at onLeft onRight
  cases path with
  | nil =>
      have root : getGreentry tbl.root = some label.index := by
        rw [inv.root]
        exact getGreentry_some inside
      simp only [deleteNear, headIndex_nil, root, Option.bind_eq_bind, Option.bind_some, record,
        stored_bf]
      by_cases leaning : bf ≥ 0
      · exact ⟨_, if_pos leaning, (onLeft (by omega)).1 (Or.inr rfl)⟩
      · exact ⟨_, if_neg leaning, (onRight (by omega)).1 (Or.inr rfl)⟩
  | cons frame outside =>
      have toward := located_toward located List.mem_cons_self
      have above := ((holds_plug ..).mp inv.holds).2.2.1
      have start : ∀ head ∈ (frame :: outside).head?, frame.side = head.side := by
        intro head isHead
        cases isHead
        rfl
      simp only [deleteNear, headIndex, List.head?_cons, Option.map_some, above, stored_key,
        walkSide_eq toward, record, stored_bf, List.tail_cons]
      rcases lt_trichotomy bf 0 with less | even | more
      · rw [if_neg (by omega), if_neg (by omega)]
        exact (onRight (by omega)).2 frame.side (by omega) start
      · rw [if_neg (by omega), if_pos even]
        exact ⟨_, rfl, (onLeft (by omega)).1 (Or.inl even)⟩
      · rw [if_pos more]
        exact (onLeft (by omega)).2 frame.side (by omega) start

end Takeover

section Spec

/-- The two outcomes of a deletion. -/
inductive Deleted (tbl : GreentryTable) (tree : BinTree Rec) (rest : List Nat)
    (key : GreentryKey) : Int → GreentryTable → Prop where
  | absent (absent : ∀ label ∈ tree.toList, label.key ≠ key) : Deleted tbl tree rest key 1 tbl
  | deleted (result : GreentryTable) (label : Rec) (member : label ∈ tree.toList)
      (same : label.key = key) (removed : Removed tbl result tree rest key label.index) :
      Deleted tbl tree rest key 0 result

theorem delete_node_spec {tbl : GreentryTable} {path : Path} {left right : BinTree Rec}
    {label : Rec} {bf : Int} {rest : List Nat}
    (inv : Represents tbl (plug path (.node left label bf right)) rest)
    (located : Located Rec.rank label.rank path) :
    ∃ result, deleteNode tbl label.key label.index (headIndex path)
        (some label.index :: pushed path [none]) = some result ∧
      Removed tbl result (plug path (.node left label bf right)) rest label.key label.index := by
  obtain ⟨-, record, leftHolds, rightHolds⟩ := ((holds_plug ..).mp inv.holds).1
  have links : (tbl.tuple label.index).left = link left ∧
      (tbl.tuple label.index).right = link right := by
    rw [record]
    exact ⟨rfl, rfl⟩
  rw [deleteNode, links.1, links.2]
  cases right with
  | nil =>
      have unlink := @unlink_spec tbl path .left left label bf rest inv located
      cases left with
      | nil => exact unlink
      | node ll leftLabel leftBf lr => exact unlink
  | node rl rightLabel rightBf rr =>
      cases left with
      | nil =>
          exact @unlink_spec tbl path .right (.node rl rightLabel rightBf rr) label bf rest inv
            located
      | node ll leftLabel leftBf lr =>
          have leftRight : (tbl.tuple leftLabel.index).right = link lr := by
            rw [leftHolds.2.1]
            rfl
          have rightLeft : (tbl.tuple rightLabel.index).left = link rl := by
            rw [rightHolds.2.1]
            rfl
          simp only [link_node, getGreentry_some leftHolds.1, getGreentry_some rightHolds.1,
            Option.bind_eq_bind, Option.bind_some]
          by_cases onLeft : (tbl.tuple leftLabel.index).right ≠ none
          · rw [if_pos onLeft]
            exact @deep_spec tbl path .right label (.node ll leftLabel leftBf lr) _ bf rest _ inv
              rfl onLeft
          · rw [if_neg onLeft]
            by_cases onRight : (tbl.tuple rightLabel.index).left ≠ none
            · rw [if_pos onRight]
              exact @deep_spec tbl path .left label (.node rl rightLabel rightBf rr) _ bf rest _ inv
                rfl onRight
            · rw [if_neg onRight]
              rw [leftRight, not_not, link_eq_none] at onLeft
              rw [rightLeft, not_not, link_eq_none] at onRight
              subst onLeft onRight
              exact near_spec inv located

theorem avl_delete_spec {tbl : GreentryTable} {tree : BinTree Rec} {rest : List Nat}
    (inv : Represents tbl tree rest) (key : GreentryKey) :
    ∃ code result, avlDeleteGreentry tbl key = some (code, result) ∧
      Deleted tbl tree rest key code result := by
  have bound := inv.height_bound
  have enough : tree.height < JMM_GREENTRY_RECORD + 1 := by
    rw [JMM_GREENTRY_RECORD]
    omega
  have room : ([] : Path).length + tree.height < 100 := by
    rw [List.length_nil]
    omega
  have search := delete_search_spec [] enough room inv.holds inv.apart.1 inv.sorted
    (located_root key)
  rw [← inv.root, headIndex_nil, pushed_nil] at search
  simp only [List.append_nil] at search
  rcases search with ⟨path, left, label, bf, right, rfl, rfl, located, search⟩ |
    ⟨path, rfl, located, search⟩
  · obtain ⟨result, run, removed⟩ := delete_node_spec inv located
    have member : label ∈ (plug path (.node left label bf right)).toList := by
      simp [toList_plug, toList]
    refine ⟨0, result, ?_, Deleted.deleted result label member rfl removed⟩
    rw [avlDeleteGreentry, search]
    simp only [Option.bind_eq_bind, Option.bind_some, run]
  · refine ⟨1, tbl, ?_, Deleted.absent (located_absent located)⟩
    rw [avlDeleteGreentry, search]
    rfl

end Spec

end Upst.Greentry
