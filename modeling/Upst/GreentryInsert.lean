import Upst.GreentryRotate

/-!
The insertion. The search leaves a place, and the anchor of the path to it: the lowest
node on the path that is not even, or the root. Below the anchor every node is even and
leans to the new node afterwards; the anchor becomes uneven, even, or is rotated.
-/

namespace Upst.Greentry

open Avl Avl.BinTree Bytes

set_option autoImplicit false

section Search

/-- `F` and `Ai` after a search down the path, from the root. -/
def anchor (root : Option Nat) : Path → Option Nat × Option Nat
  | [] => (none, root)
  | frame :: rest =>
      if frame.bf ≠ 0 then (headIndex rest, some frame.label.index) else anchor root rest

theorem anchor_split {root : Option Nat} {path : Path} {hole : Option Nat}
    (top : root = topLink path hole) (nonempty : path ≠ []) :
    ∃ inner frame outside, path = inner ++ frame :: outside ∧
      (∀ other ∈ inner, other.bf = 0) ∧ (frame.bf ≠ 0 ∨ outside = []) ∧
      anchor root path = (headIndex outside, some frame.label.index) := by
  induction path generalizing hole with
  | nil => exact absurd rfl nonempty
  | cons frame rest ih =>
      by_cases uneven : frame.bf ≠ 0
      · exact ⟨[], frame, rest, rfl, by simp, Or.inl uneven, if_pos uneven⟩
      · cases rest with
        | nil =>
            refine ⟨[], frame, [], rfl, by simp, Or.inr rfl, ?_⟩
            rw [anchor, if_neg uneven, anchor, top]
            rfl
        | cons next rest =>
            obtain ⟨inner, low, outside, split, even, stop, eq⟩ :=
              @ih (some frame.label.index) top (List.cons_ne_nil _ _)
            refine ⟨frame :: inner, low, outside, ?_, ?_, stop, ?_⟩
            · rw [split, List.cons_append]
            · intro other member
              rcases List.mem_cons.mp member with rfl | inRest
              · exact not_not.mp uneven
              · exact even other inRest
            · rw [anchor, if_neg uneven, eq]

theorem insert_search_spec {tuple : Tuples} {key : GreentryKey} (root : Option Nat)
    {fuel : Nat} (path : Path) {sub : BinTree Rec} (bound : sub.height < fuel)
    (holds : Holds tuple sub) (nodup : (indices sub).Nodup)
    (sorted : (plug path sub).Sorted Rec.rank) (located : Located Rec.rank (rank key) path) :
    ((∃ label ∈ sub.toList, label.key = key) ∧
      insertSearch tuple key fuel (link sub) (headIndex path) (anchor root path).1
        (anchor root path).2 = some (.error 1)) ∨
    ∃ inner, plug inner .nil = sub ∧ Located Rec.rank (rank key) (inner ++ path) ∧
      insertSearch tuple key fuel (link sub) (headIndex path) (anchor root path).1
        (anchor root path).2 = some (.ok (headIndex (inner ++ path),
          (anchor root (inner ++ path)).1, (anchor root (inner ++ path)).2)) := by
  induction fuel generalizing path sub with
  | zero => omega
  | succ fuel ih =>
      cases sub with
      | nil => exact Or.inr ⟨[], rfl, located, rfl⟩
      | node left label bf right =>
          obtain ⟨near, far, shape⟩ :=
            node_eq_join (searchSide key label.key) left label bf right
          rw [shape] at bound holds nodup sorted ⊢
          obtain ⟨inside, record, nearHolds, -⟩ := (holds_join ..).mp holds
          obtain ⟨⟨apart, -⟩, nearNodup, -⟩ := nodup_join.mp nodup
          simp only [link_join, insertSearch, getGreentry_some inside, Option.bind_eq_bind,
            Option.bind_some, record, stored_bf, stored_key, stored_child]
          by_cases found : memcmpKey key label.key = 0
          · refine Or.inl ⟨⟨label, ?_, ((memcmpKey_rank _ _).2.1.mp found).symm⟩, if_pos found⟩
            rw [← shape]
            simp [toList]
          · have toward := searchSide_toward found
            have next := located_step sorted located toward
            rw [if_neg found, if_neg (link_ne_self apart)]
            have lower : near.height < fuel := by
              rw [height_join] at bound
              omega
            have go := ih (⟨searchSide key label.key, label, bf, far⟩ :: path) lower
              nearHolds nearNodup sorted next
            have shift : anchor root (⟨searchSide key label.key, label, bf, far⟩ :: path) =
                (if bf ≠ 0 then headIndex path else (anchor root path).1,
                  if bf ≠ 0 then some label.index else (anchor root path).2) := by
              rw [anchor]
              split_ifs <;> rfl
            rw [shift] at go
            rcases go with ⟨⟨other, member, same⟩, result⟩ | ⟨inner, fill, place, result⟩
            · refine Or.inl ⟨⟨other, ?_, same⟩, result⟩
              rw [← shape]
              cases side : searchSide key label.key <;> rw [side] at shape <;> cases shape <;>
                simp [toList, member]
            · refine Or.inr ⟨inner ++ [⟨searchSide key label.key, label, bf, far⟩], ?_, ?_, ?_⟩
              · rw [plug_append, fill]
                rfl
              · rw [List.append_assoc]
                exact place
              · rw [List.append_assoc]
                exact result

end Search

section Walk

def leaf (label : Rec) : BinTree Rec :=
  .node .nil label 0 .nil

theorem topLink_grown (path : Path) (hole : Option Nat) :
    topLink (path.map Frame.grown) hole = topLink path hole := by
  induction path generalizing hole with
  | nil => rfl
  | cons frame rest ih => exact ih (some frame.label.index)

theorem plug_snoc (inner : Path) (frame : Frame Rec) (tree : BinTree Rec) :
    plug (inner ++ [frame]) tree =
      join frame.side (plug inner tree) frame.label frame.bf frame.far := by
  rw [plug_append]
  rfl

theorem insert_walk_spec {key : GreentryKey} {label : Rec} {inner : Path} {tuple : Tuples}
    {fuel top : Nat} (bound : inner.length < fuel) (holds : Holds tuple (plug inner (leaf label)))
    (nodup : (indices (plug inner (leaf label))).Nodup)
    (toward : ∀ frame ∈ inner, Toward frame.side (rank key) frame.label.rank)
    (start : link (plug inner (leaf label)) = some top) :
    ∃ changed, insertWalk key label.index fuel tuple top = some (0, changed) ∧
      Holds changed (plug (inner.map Frame.grown) (leaf label)) ∧
      ∀ place, place ∉ indices (plug inner (leaf label)) → changed place = tuple place := by
  induction inner using List.reverseRecOn generalizing tuple fuel top with
  | nil =>
      obtain ⟨fuel, rfl⟩ := Nat.exists_eq_succ_of_ne_zero (Nat.ne_of_gt bound)
      have here : label.index = top := Option.some.inj start
      exact ⟨tuple, if_pos here.symm, holds, fun _ _ => rfl⟩
  | append_singleton inner frame ih =>
      obtain ⟨fuel, rfl⟩ := Nat.exists_eq_succ_of_ne_zero (Nat.ne_zero_of_lt bound)
      rw [List.length_append, List.length_singleton] at bound
      rw [plug_snoc] at holds nodup start ⊢
      rw [link_join, Option.some.injEq] at start
      subst start
      have members := List.forall_mem_append.mp toward
      obtain ⟨⟨apart, apartFar⟩, nearNodup, farNodup, cross⟩ := nodup_join.mp nodup
      have side := walkSide_eq (members.2 frame List.mem_cons_self)
      have set := holds_setBf frame.side.sign holds nodup
      obtain ⟨inside, record, nearHolds, farHolds⟩ := (holds_join ..).mp set
      obtain ⟨next, below⟩ : ∃ next, link (plug inner (leaf label)) = some next := by
        cases eq : plug inner (leaf label) with
        | nil =>
            have high := height_path_le inner (leaf label)
            rw [eq] at high
            simp [leaf, height] at high
        | node left low bf right => exact ⟨low.index, rfl⟩
      obtain ⟨changed, walk, grown, same⟩ :=
        ih (Nat.lt_of_succ_lt_succ bound) nearHolds nearNodup members.1 below
      have labelIn : label.index ∈ indices (plug inner (leaf label)) := by
        rw [(indices_plug ..).mem_iff]
        simp [leaf, indices, toList]
      have differ : frame.label.index ≠ label.index :=
        fun eq => apart (eq ▸ labelIn)
      have current := ((holds_join ..).mp holds).2.1
      refine ⟨changed, ?_, ?_, ?_⟩
      · rw [insertWalk, if_neg differ]
        simp only [current, stored_key, side, record, stored_child]
        rw [getGreentry_link nearHolds, below]
        exact walk
      · rw [List.map_append, List.map_singleton, plug_snoc, holds_join]
        refine ⟨inside, ?_, grown, holds_congr ?_ farHolds⟩
        · show changed frame.label.index = stored frame.side frame.label frame.side.sign _ _
          rw [same _ apart, record, link_plug, link_plug, topLink_grown]
          rfl
        · exact fun index member => same index fun inNear => cross index inNear member
      · intro place outside
        simp only [mem_indices_join, not_or] at outside
        rw [same place outside.2.1, setBf_apart _ _ outside.1]

/-- Below the anchor the first node leans to the new one. -/
theorem grown_top_uneven {tuple : Tuples} {label : Rec} {inner : Path} {top : Nat}
    (holds : Holds tuple (plug (inner.map Frame.grown) (leaf label)))
    (start : link (plug (inner.map Frame.grown) (leaf label)) = some top)
    (nonempty : inner ≠ []) : (tuple top).bf ≠ 0 := by
  obtain ⟨init, frame, rfl⟩ := (List.eq_nil_or_concat inner).resolve_left nonempty
  rw [List.concat_eq_append, List.map_append, List.map_singleton, plug_snoc] at holds start
  rw [link_join, Option.some.injEq] at start
  rw [← start, ((holds_join ..).mp holds).2.1, stored_bf]
  exact sign_ne_zero frame.side

end Walk

section Relink

/-- The lookup of the link to `old` in `F` finds the field on the path. -/
theorem insert_relink_eq {tbl : GreentryTable} {path : Path} {old : Nat} (new : Nat)
    (holds : HoldsPath tbl.tuple path (some old)) (outside : old ∉ pathIndices path) :
    insertRelink tbl (headIndex path) old new = setPindex tbl (placeOf path) new := by
  cases path with
  | nil => rfl
  | cons frame rest =>
      have record := holds.2.1
      have far := far_link_ne outside
      simp only [headIndex, placeOf, List.head?_cons, Option.map_some, insertRelink, record]
      cases side : frame.side with
      | left => simp [stored, setPindex]
      | right => simp [stored, setPindex, Ne.symm far]

end Relink

section Rebalance

/-- The anchor, when the subtree below it has become one higher. -/
theorem insert_turn_spec {tbl : GreentryTable} {frame : Frame Rec} {outside : Path}
    {grown : BinTree Rec} {B height : Nat}
    (root : tbl.root = link (plug (frame :: outside) grown))
    (holds : Holds tbl.tuple (plug (frame :: outside) grown))
    (nodup : (indices (plug (frame :: outside) grown)).Nodup) (below : link grown = some B)
    (grownOk : grown.HeightBalanced) (pathOk : PathBalanced (frame :: outside) height)
    (higher : grown.height = height + 1) (stop : frame.bf ≠ 0 ∨ outside = [])
    (uneven : height ≠ 0 → (tbl.tuple B).bf ≠ 0) :
    ∃ result new,
      insertTurn tbl frame.side (headIndex outside) frame.label.index B = some result ∧
      Carries tbl result (plug (frame :: outside) grown) new ∧ new.HeightBalanced := by
  rw [plug, Frame.fill] at root holds nodup ⊢
  obtain ⟨nodeNodup, outsideNodup, apartPath⟩ := plug_nodup nodup
  obtain ⟨nodeHolds, outsideHolds⟩ := (holds_plug ..).mp holds
  have record := ((holds_join ..).mp nodeHolds).2.1
  rw [link_join] at outsideHolds
  obtain ⟨factor, low, up, farOk, outsideOk⟩ := pathOk
  have settle (value : Int)
      (balanced : (join frame.side grown frame.label value frame.far).HeightBalanced) :=
    carries_in_place (set_bf_rebuilt value nodeHolds nodeNodup balanced) root holds nodup
      (link_join ..)
  rw [insertTurn, record, stored_bf]
  rcases factor_cases factor low up with ⟨even, level⟩ | ⟨away, level⟩ | ⟨leaning, level⟩
  · obtain rfl := stop.resolve_left (not_not.mpr even)
    have turned : (join frame.side grown frame.label frame.side.sign frame.far).HeightBalanced := by
      refine (balanced_join ..).mpr ⟨?_, ?_, ?_, grownOk, farOk⟩
      · have unit : (grown.height : Int) - frame.far.height = 1 := by omega
        rw [unit, mul_one]
      · cases frame.side <;> decide
      · cases frame.side <;> decide
    exact ⟨_, _, if_pos even, settle frame.side.sign turned, turned⟩
  · have notEven : ¬frame.bf = 0 := fun even => sign_ne_zero frame.side (by omega)
    have becomes : frame.bf + frame.side.sign = 0 := by omega
    have turned : (join frame.side grown frame.label 0 frame.far).HeightBalanced := by
      refine (balanced_join ..).mpr ⟨?_, by decide, by decide, grownOk, farOk⟩
      have zero : (grown.height : Int) - frame.far.height = 0 := by omega
      rw [zero, mul_zero]
    refine ⟨_, _, (if_neg notEven).trans (if_pos becomes), settle 0 turned, ?_⟩
    have same : 1 + max grown.height frame.far.height = 1 + max height frame.far.height := by
      omega
    rw [balanced_plug, height_join, same]
    exact ⟨turned, outsideOk⟩
  · have notEven : ¬frame.bf = 0 := fun even => sign_ne_zero frame.side (by omega)
    have notZero : ¬frame.bf + frame.side.sign = 0 := by
      have nonzero := sign_ne_zero frame.side
      omega
    obtain ⟨changed, top, new, rotated, rebuilt, high⟩ := insert_rotate_spec nodeHolds nodeNodup
      grownOk farOk (by omega) below (uneven (by omega))
    have relinked := carries_relinked rebuilt root holds nodup (link_join ..)
    have pathHolds : HoldsPath changed outside (some frame.label.index) :=
      holdsPath_congr (fun index member => rebuilt.apart index fun inTree =>
        apartPath index inTree member) outsideHolds
    have anchorApart : frame.label.index ∉ pathIndices outside :=
      apartPath _ (mem_indices_join.mpr (Or.inl rfl))
    refine ⟨_, plug outside new, ?_, relinked, ?_⟩
    · rw [if_neg notEven, if_neg notZero, rotated,
        ← @insert_relink_eq { tbl with tuple := changed } _ _ _ pathHolds anchorApart]
      rfl
    · have same : new.height = 1 + max height frame.far.height := by omega
      rw [balanced_plug, same]
      exact ⟨rebuilt.balanced, outsideOk⟩

theorem insert_rebalance_spec {tbl : GreentryTable} {key : GreentryKey} {label : Rec}
    {inner outside : Path} {frame : Frame Rec}
    (root : tbl.root = link (plug (inner ++ frame :: outside) (leaf label)))
    (holds : Holds tbl.tuple (plug (inner ++ frame :: outside) (leaf label)))
    (nodup : (indices (plug (inner ++ frame :: outside) (leaf label))).Nodup)
    (located : Located Rec.rank (rank key) (inner ++ frame :: outside))
    (balanced : (plug (inner ++ frame :: outside) .nil).HeightBalanced)
    (small : inner.length < JMM_GREENTRY_RECORD)
    (even : ∀ other ∈ inner, other.bf = 0) (stop : frame.bf ≠ 0 ∨ outside = []) :
    ∃ result new, insertRebalance tbl key label.index (headIndex outside)
        (some frame.label.index) = some (0, result) ∧
      Carries tbl result (plug (inner ++ frame :: outside) (leaf label)) new ∧
      new.HeightBalanced := by
  have toward (other : Frame Rec) (member : other ∈ inner ++ frame :: outside) :=
    located_toward located member
  have side := walkSide_eq (toward frame (by simp))
  rw [plug_append, balanced_plug] at balanced
  obtain ⟨innerOk, pathOk⟩ := balanced
  have innerPathOk := ((balanced_plug inner .nil).mp innerOk).2
  have higher : (plug (inner.map Frame.grown) (leaf label)).height =
      (plug inner .nil).height + 1 := grown_height even innerPathOk rfl
  have grownOk : (plug (inner.map Frame.grown) (leaf label)).HeightBalanced := by
    rw [balanced_plug]
    exact ⟨⟨rfl, by decide, by decide, trivial, trivial⟩, grown_balanced even innerPathOk⟩
  have sameLink : link (plug (inner.map Frame.grown) (leaf label)) =
      link (plug inner (leaf label)) := by rw [link_plug, link_plug, topLink_grown]
  rw [plug_append] at root holds nodup ⊢
  obtain ⟨nearNodup, -, apartPath⟩ := plug_nodup nodup
  obtain ⟨nearHolds, pathHolds⟩ := (holds_plug ..).mp holds
  have anchorIn := pathHolds.1
  have record := pathHolds.2.1
  obtain ⟨B, below⟩ : ∃ B, link (plug inner (leaf label)) = some B := by
    rw [← Option.ne_none_iff_exists', ne_eq, ← sameLink, link_eq_none]
    intro empty
    rw [empty] at higher
    cases higher
  have enough : inner.length < JMM_GREENTRY_RECORD + 1 := by omega
  obtain ⟨changed, walk, grownHolds, apart⟩ := insert_walk_spec enough nearHolds nearNodup
    (fun other member => toward other (List.mem_append_left _ member)) below
  have uneven : (plug inner .nil).height ≠ 0 → (changed B).bf ≠ 0 := by
    intro high
    refine grown_top_uneven grownHolds (sameLink.trans below) ?_
    rintro rfl
    exact high rfl
  have walked : Carries tbl { tbl with tuple := changed } _ _ :=
    carries_in_place ⟨grownHolds, sameLink.trans below, grownOk, toList_grown .., apart⟩ root holds
      nodup below
  have midNodup := indices_congr walked.labels ▸ nodup
  obtain ⟨result, new, turn, turned, newOk⟩ := insert_turn_spec walked.root walked.holds midNodup
    (sameLink.trans below) grownOk pathOk higher stop uneven
  refine ⟨result, new, ?_, walked.trans turned, newOk⟩
  rw [insertRebalance, getGreentry_some anchorIn]
  simp only [Option.bind_eq_bind, Option.bind_some, record, stored_key, side, stored_child]
  rw [below, ← below, getGreentry_link nearHolds, below]
  simp only [Option.bind_some, walk, ne_eq, not_true_eq_false, if_false, turn]

end Rebalance

section Spec

theorem alloc_spec {tbl : GreentryTable} {tree : BinTree Rec} {rest : List Nat}
    (inv : Stores tbl tree rest) :
    (rest = [] ∧ greentryAlloc tbl = none) ∨
      ∃ next others, rest = next :: others ∧
        greentryAlloc tbl = some (tbl.free, { tbl with free := next }) := by
  have chain := inv.chain
  cases rest with
  | nil =>
      refine Or.inl ⟨rfl, ?_⟩
      rw [FreeChain] at chain
      rw [greentryAlloc, chain]
  | cons next others =>
      refine Or.inr ⟨next, others, rfl, ?_⟩
      have differ : tbl.free ≠ next := by
        have nodup := inv.apart.2.1
        rintro same
        rw [List.nodup_cons, same] at nodup
        exact nodup.1 List.mem_cons_self
      rw [greentryAlloc, chain.1]
      exact if_neg differ

/-- The three outcomes of an insertion. -/
inductive Inserted (tbl : GreentryTable) (tree : BinTree Rec) (rest : List Nat)
    (key : GreentryKey) (body : Int64) : Int → GreentryTable → Prop where
  | present (label : Rec) (member : label ∈ tree.toList) (same : label.key = key) :
      Inserted tbl tree rest key body 1 tbl
  | full (absent : ∀ label ∈ tree.toList, label.key ≠ key) (full : rest = []) :
      Inserted tbl tree rest key body (-1) tbl
  | inserted (absent : ∀ label ∈ tree.toList, label.key ≠ key) (result : GreentryTable)
      (new : BinTree Rec) (others : List Nat) (front back : List Rec) (label : Rec)
      (inv : Represents result new others) (room : rest = result.free :: others)
      (filled : content result.tuple = Function.update (content tbl.tuple) tbl.free (key, body))
      (used : result.used = tbl.used) (old : tree.toList = front ++ back)
      (labels : new.toList = front ++ label :: back) (entry : label.entry = (key, body)) :
      Inserted tbl tree rest key body 0 result

theorem indices_linked (path : Path) (label : Rec) :
    (indices (plug path (leaf label))).Perm (label.index :: indices (plug path .nil)) := by
  have old := indices_plug path (.nil : BinTree Rec)
  refine (indices_plug path (leaf label)).trans ?_
  exact old.symm.cons _

/-- The new record at its place, before the rebalancing. -/
theorem linked_stores {tbl linked : GreentryTable} {path : Path} {label : Rec}
    {others : List Nat} (inv : Stores tbl (plug path .nil) (linked.free :: others))
    (place : label.index = tbl.free) (located : Located Rec.rank label.rank path)
    (root : linked.root = link (plug path (leaf label)))
    (holds : Holds linked.tuple (plug path (leaf label)))
    (same : ∀ index, index ∉ label.index :: pathIndices path →
      linked.tuple index = tbl.tuple index) :
    Stores linked (plug path (leaf label)) others := by
  obtain ⟨-, freeNodup, cross⟩ := inv.apart
  refine ⟨root, holds, ?_, ?_, ?_⟩
  · refine freeChain_congr ?_ inv.chain.2
    intro index member
    have offPath := (not_mem_plug (cross index (List.mem_cons_of_mem _ member))).2
    apply same
    rw [List.mem_cons, not_or, place]
    exact ⟨ne_of_mem_of_not_mem member (List.nodup_cons.mp freeNodup).1, offPath⟩
  · refine ((indices_linked path label).append_right _).trans (List.Perm.trans ?_ inv.parts)
    rw [List.cons_append, ← place]
    exact List.perm_middle.symm
  · have ordered := inv.ordered
    rw [toList_plug, toList, List.append_nil, ← sorted_iff_ordered] at ordered
    rw [← sorted_iff_ordered, toList_plug]
    exact sorted_insert rfl ordered located

/-- The insertion into an empty tree. -/
theorem insert_root_stores {tbl : GreentryTable} {label : Rec} {record : GreentryType}
    {next : Nat} {others : List Nat} (inv : Stores tbl .nil (next :: others))
    (place : label.index = tbl.free) (fresh : record = stored .left label 0 none none)
    (located : Located Rec.rank label.rank []) :
    Stores { tbl with
      free := next
      tuple := Function.update tbl.tuple tbl.free record
      root := some tbl.free } (leaf label) others := by
  refine @linked_stores tbl _ [] label others inv place located (congrArg some place.symm)
    ⟨?_, ?_, trivial, trivial⟩ ?_
  · rw [place]
    exact inv.inside (List.mem_append_right _ List.mem_cons_self)
  · rw [place]
    exact (Function.update_self ..).trans fresh
  · intro other outside
    rw [List.mem_cons, not_or] at outside
    exact Function.update_of_ne (place ▸ outside.1) _ _

/-- The writes of the insertion up to the new link, at a path that is not empty. -/
theorem insert_below_stores {tbl : GreentryTable} {frame : Frame Rec} {outside : Path}
    {label : Rec} {record : GreentryType} {next : Nat} {others : List Nat}
    (inv : Stores tbl (plug (frame :: outside) .nil) (next :: others))
    (place : label.index = tbl.free) (fresh : record = stored .left label 0 none none)
    (located : Located Rec.rank label.rank (frame :: outside)) :
    Stores { tbl with
      free := next
      tuple := setChild (Function.update tbl.tuple tbl.free record) frame.label.index frame.side
        (some tbl.free) } (plug (frame :: outside) (leaf label)) others := by
  obtain ⟨treeNodup, -, cross⟩ := inv.apart
  obtain ⟨-, pathNodup, -⟩ := plug_nodup treeNodup
  have freeApart := (not_mem_plug (cross tbl.free List.mem_cons_self)).2
  have frameApart : tbl.free ≠ frame.label.index := by
    rw [pathIndices_cons, List.mem_cons, not_or] at freeApart
    exact freeApart.1
  have pathHolds := ((holds_plug ..).mp inv.holds).2
  have updated : HoldsPath (Function.update tbl.tuple tbl.free record) (frame :: outside) none :=
    holdsPath_congr (fun index member => Function.update_of_ne
      (ne_of_mem_of_not_mem member freeApart) _ _) pathHolds
  refine @linked_stores tbl _ (frame :: outside) label others inv place located ?_ ?_ ?_
  · rw [link_plug]
    exact inv.root.trans (link_plug ..)
  · rw [holds_plug, show link (leaf label) = some tbl.free from congrArg some place]
    refine ⟨⟨?_, ?_, trivial, trivial⟩, holdsPath_setChild _ updated pathNodup⟩
    · rw [place]
      exact inv.inside (List.mem_append_right _ List.mem_cons_self)
    · rw [place]
      refine (setChild_apart _ _ _ frameApart).trans ?_
      rw [Function.update_self, fresh]
      rfl
  · intro other outsideAll
    rw [List.mem_cons, pathIndices_cons, List.mem_cons, not_or, not_or] at outsideAll
    refine (setChild_apart _ _ _ outsideAll.2.1).trans ?_
    exact Function.update_of_ne (place ▸ outsideAll.1) _ _

theorem insert_new_spec {tbl : GreentryTable} {path : Path} {label : Rec} {next : Nat}
    {others : List Nat} (inv : Represents tbl (plug path .nil) (next :: others))
    (place : label.index = tbl.free) (located : Located Rec.rank label.rank path)
    (search : insertSearch tbl.tuple label.key (JMM_GREENTRY_RECORD + 1) tbl.root none none
      tbl.root =
        some (.ok (headIndex path, (anchor tbl.root path).1, (anchor tbl.root path).2)))
    (alloc : greentryAlloc tbl = some (tbl.free, { tbl with free := next })) :
    ∃ result new, avlInsertGreentry tbl label.key label.body = some (0, result) ∧
      Represents result new others ∧ result.used = tbl.used ∧ result.free = next ∧
      content result.tuple = Function.update (content tbl.tuple) tbl.free label.entry ∧
      new.toList = (plug path (leaf label)).toList := by
  have written : content (Function.update tbl.tuple tbl.free
      { key := label.key, body := label.body, left := none, right := none, bf := 0 }) =
        Function.update (content tbl.tuple) tbl.free label.entry := by
    funext place
    by_cases same : place = tbl.free
    · rw [content, same, Function.update_self, Function.update_self]
      rfl
    · rw [content, Function.update_of_ne same, Function.update_of_ne same]
      rfl
  let record : GreentryType :=
    { key := label.key, body := label.body, left := none, right := none, bf := 0 }
  cases path with
  | nil =>
      have stores := @insert_root_stores tbl label record next others inv.toStores place rfl located
      refine ⟨_, leaf label, ?_, ⟨stores, rfl, by decide, by decide, trivial, trivial⟩, rfl, rfl, written,
        rfl⟩
      rw [avlInsertGreentry, search]
      simp only [Option.bind_eq_bind, Option.bind_some, alloc]
      rfl
  | cons frame outside =>
      have stores := @insert_below_stores tbl frame outside label record next others inv.toStores
        place rfl located
      have top : tbl.root = topLink (frame :: outside) none := inv.root.trans (link_plug ..)
      obtain ⟨inner, turn, above, split, even, stop, eq⟩ :=
        anchor_split top (List.cons_ne_nil _ _)
      have small := height_path_le (frame :: outside) .nil
      have bound := inv.height_bound
      have toward := located_toward located List.mem_cons_self
      have frameRecord := ((holds_plug ..).mp inv.holds).2.2.1
      have differ : frame.label.index ≠ tbl.free := by
        have apart := (not_mem_plug (inv.apart.2.2 tbl.free List.mem_cons_self)).2
        rw [pathIndices_cons, List.mem_cons, not_or] at apart
        exact Ne.symm apart.1
      rw [split] at stores located small bound ⊢
      rw [List.length_append] at small
      have few : inner.length < JMM_GREENTRY_RECORD := by
        rw [JMM_GREENTRY_RECORD]
        omega
      obtain ⟨result, new, run, carries, newOk⟩ := insert_rebalance_spec stores.root stores.holds
        stores.apart.1 located (split ▸ inv.balanced) few even stop
      have contents := (carries.content stores.holds).trans (content_setChild _ _ _)
      refine ⟨result, new, ?_, ⟨stores.carried carries, newOk⟩, carries.used, carries.free,
        contents.trans written, carries.labels⟩
      rw [avlInsertGreentry, search, eq]
      simp only [Option.bind_eq_bind, Option.bind_some, alloc]
      simp only [headIndex, List.head?_cons, Option.map_some,
        Function.update_of_ne differ, frameRecord, stored_key, searchSide_eq toward]
      rw [place] at run
      exact run

theorem avl_insert_spec {tbl : GreentryTable} {tree : BinTree Rec} {rest : List Nat}
    (inv : Represents tbl tree rest) (key : GreentryKey) (body : Int64) :
    ∃ code result, avlInsertGreentry tbl key body = some (code, result) ∧
      Inserted tbl tree rest key body code result := by
  have bound := inv.height_bound
  have enough : tree.height < JMM_GREENTRY_RECORD + 1 := by
    rw [JMM_GREENTRY_RECORD]
    omega
  have search := insert_search_spec tbl.root [] enough inv.holds inv.apart.1 inv.sorted
    (located_root key)
  rw [← inv.root, headIndex_nil, anchor] at search
  rcases search with ⟨⟨label, member, same⟩, search⟩ | ⟨path, rfl, located, search⟩
  · refine ⟨1, tbl, ?_, Inserted.present label member same⟩
    rw [avlInsertGreentry, search]
    rfl
  · rw [List.append_nil] at located search
    have old : (plug path .nil : BinTree Rec).toList = before path ++ after path := by
      rw [toList_plug, toList, List.append_nil]
    have absent := located_absent located
    rcases alloc_spec inv.toStores with ⟨empty, alloc⟩ | ⟨next, others, rfl, alloc⟩
    · refine ⟨-1, tbl, ?_, Inserted.full absent empty⟩
      rw [avlInsertGreentry, search]
      simp only [Option.bind_eq_bind, Option.bind_some, alloc]
    · let label : Rec := { index := tbl.free, key := key, body := body }
      obtain ⟨result, new, run, represents, used, free, contents, labels⟩ :=
        @insert_new_spec tbl path label next others inv rfl located search alloc
      have room : next :: others = result.free :: others := by
        rw [free]
      have inside : new.toList = before path ++ label :: after path := by
        rw [labels, toList_plug, List.append_assoc]
        rfl
      exact ⟨0, result, run, Inserted.inserted absent result new others (before path) (after path)
        label represents room contents used old inside rfl⟩

end Spec

end Upst.Greentry
