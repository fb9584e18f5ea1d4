import Upst.PreaFragStore

/-!
The fragments of a datagram in their ring. In whatever order they come, the ring has them in the order of
their offsets, the test for the whole datagram holds when all of them have come and not before, and the
node that is made then has the payloads one behind the other.
-/

namespace Upst.PreaFrag

open Bytes Word

set_option autoImplicit false

section Sorted

variable {ring : Ring} {pNODE : Fragment}

/-- In the order of the offsets. -/
def Ordered (nodes : List Fragment) : Prop :=
  nodes.Pairwise fun first second => first.offset < second.offset

theorem insert_at (value : Fragment) : ∀ (place : Nat) (nodes : List Fragment), place ≤ nodes.length →
    nodes.insertIdx place value = nodes.take place ++ value :: nodes.drop place
  | 0, _, _ => rfl
  | place + 1, [], upTo => absurd upTo (Nat.not_succ_le_zero place)
  | place + 1, node :: nodes, upTo => by
      rw [List.insertIdx_succ_cons, insert_at value place nodes (Nat.le_of_succ_le_succ upTo)]
      rfl

/-- A new node between those of lower and those of higher offsets. -/
theorem ordered_between {front back : List Fragment} (ordered : Ordered (front ++ back))
    (lower : ∀ frag ∈ front, frag.offset < pNODE.offset) (higher : ∀ frag ∈ back, pNODE.offset < frag.offset) :
    Ordered (front ++ pNODE :: back) := by
  obtain ⟨one, two, across⟩ := List.pairwise_append.mp ordered
  refine List.pairwise_append.mpr ⟨one, List.pairwise_cons.mpr ⟨higher, two⟩, fun frag inFront other inBack => ?_⟩
  rcases List.mem_cons.mp inBack with rfl | behind
  · exact lower frag inFront
  · exact across frag inFront other behind

theorem sort_loop_ordered {i left : Nat} (turns : i + left = ring.nodes.length) (ordered : Ordered ring.nodes)
    (apart : ∀ frag ∈ ring.nodes, frag.offset ≠ pNODE.offset)
    (higher : ∀ frag ∈ ring.nodes.drop (ring.nodes.length - i), pNODE.offset < frag.offset) :
    Ordered (sortLoop ring pNODE i left).nodes := by
  induction left generalizing i with
  | zero =>
      rw [Nat.add_zero] at turns
      rw [turns, Nat.sub_self, List.drop_zero] at higher
      exact List.pairwise_cons.mpr ⟨higher, ordered⟩
  | succ left ih =>
      have count : ring.nodes.length = ring.others.length + 1 := rfl
      have turn : i % ring.nodes.length = i := Nat.mod_eq_of_lt (by omega)
      have inside : ring.others.length - i < ring.nodes.length := by omega
      have behind : ring.nodes.length - i = ring.others.length - i + 1 := by omega
      have node : ring.nodes.getD (ring.others.length - i) ring.head = ring.nodes[ring.others.length - i] :=
        List.getD_eq_getElem _ _ inside
      have whole := List.take_append_drop (ring.others.length - i + 1) ring.nodes
      rw [sortLoop, turn, node]
      rw [behind] at higher
      split
      · next lower =>
          have shape : Ring.nodes { ring with others := ring.others.insertIdx (ring.others.length - i) pNODE } =
              ring.nodes.take (ring.others.length - i + 1) ++
                pNODE :: ring.nodes.drop (ring.others.length - i + 1) := by
            rw [Ring.nodes, insert_at pNODE _ _ (Nat.sub_le _ _)]
            rfl
          rw [shape]
          refine ordered_between (whole.symm ▸ ordered) (fun frag member => ?_) higher
          rw [List.take_succ_eq_append_getElem inside] at member
          rcases List.mem_append.mp member with before | last
          · rw [← whole, List.take_succ_eq_append_getElem inside, List.append_assoc] at ordered
            have across := (List.pairwise_append.mp ordered).2.2 frag before _ List.mem_cons_self
            exact Nat.lt_trans across lower
          · obtain rfl := List.mem_singleton.mp last
            exact lower
      · next upper =>
          refine ih (by omega) fun frag member => ?_
          have place : ring.nodes.length - (i + 1) = ring.others.length - i := by omega
          rw [place, List.drop_eq_getElem_cons inside] at member
          rcases List.mem_cons.mp member with rfl | later
          · have other := apart _ (List.getElem_mem inside)
            omega
          · exact higher frag later

/-- The ring stays in order. -/
theorem sort_ordered (ordered : Ordered ring.nodes) (apart : ∀ frag ∈ ring.nodes, frag.offset ≠ pNODE.offset) :
    Ordered (ipFragSort ring ring.nodes.length pNODE).nodes := by
  refine sort_loop_ordered (Nat.zero_add _) ordered apart fun frag member => ?_
  rw [Nat.sub_zero, List.drop_length] at member
  cases member

theorem ordered_perm {one two : List Fragment} (first : Ordered one) (second : Ordered two)
    (same : one.Perm two) : one = two :=
  List.Perm.eq_of_pairwise
    (fun _ _ _ _ before after => absurd before (Nat.lt_asymm after)) first second same

end Sorted

section Finish

/-- The payloads follow each other from an offset on, and none is empty. -/
def Tiled : Nat → List Fragment → Prop
  | _, [] => True
  | offset, frag :: rest => frag.offset = offset ∧ 0 < frag.size ∧ Tiled (offset + frag.size.toNat) rest

variable {frags nodes : List Fragment} {offset : Nat}

theorem tiled_from (tiled : Tiled offset frags) : ∀ frag ∈ frags, offset ≤ frag.offset := by
  induction frags generalizing offset with
  | nil => exact fun _ member => by cases member
  | cons first rest ih =>
      obtain ⟨here, -, later⟩ := tiled
      intro frag member
      rcases List.mem_cons.mp member with rfl | behind
      · exact Nat.le_of_eq here.symm
      · exact Nat.le_trans (Nat.le_add_right _ _) (ih later frag behind)

theorem tiled_behind {first : Fragment} {rest : List Fragment} (tiled : Tiled offset (first :: rest)) :
    ∀ frag ∈ rest, first.offset < frag.offset := by
  obtain ⟨here, positive, later⟩ := tiled
  intro frag member
  have upTo := tiled_from later frag member
  omega

theorem tiled_ordered (tiled : Tiled offset frags) : Ordered frags := by
  induction frags generalizing offset with
  | nil => exact List.Pairwise.nil
  | cons first rest ih => exact List.pairwise_cons.mpr ⟨tiled_behind tiled, ih tiled.2.2⟩

theorem tiled_positive (tiled : Tiled offset frags) : ∀ frag ∈ frags, 0 < frag.size := by
  induction frags generalizing offset with
  | nil => exact fun _ member => by cases member
  | cons first rest ih =>
      intro frag member
      rcases List.mem_cons.mp member with rfl | behind
      · exact tiled.2.1
      · exact ih tiled.2.2 frag behind

theorem check_loop_tiled (tiled : Tiled offset frags) : checkLoop offset frags = 1 := by
  induction frags generalizing offset with
  | nil => rfl
  | cons first rest ih =>
      obtain ⟨here, positive, later⟩ := tiled
      have next : (offset : Int) + first.size = ((offset + first.size.toNat : Nat) : Int) := by omega
      have same : (first.offset : Int) = offset := congrArg Nat.cast here
      rw [checkLoop, if_neg (not_not.mpr same), next]
      exact ih later

/-- Fragments that pass the test and have the last one of the datagram are all of them. -/
theorem check_loop_all (tiled : Tiled offset frags) (sub : nodes.Sublist frags)
    (last : ∀ frag ∈ frags.getLast?, frag ∈ nodes) (fine : 0 < checkLoop offset nodes) : nodes = frags := by
  induction frags generalizing offset nodes with
  | nil => exact List.sublist_nil.mp sub
  | cons first rest ih =>
      obtain ⟨here, positive, later⟩ := tiled
      have behind := @tiled_behind offset first rest ⟨here, positive, later⟩
      have next : (offset : Int) + first.size = ((offset + first.size.toNat : Nat) : Int) := by omega
      cases nodes with
      | nil =>
          obtain ⟨end_, known⟩ := Option.isSome_iff_exists.mp (List.getLast?_isSome.mpr (List.cons_ne_nil first rest))
          cases last end_ known
      | cons node nodes =>
          rw [checkLoop] at fine
          split at fine
          · cases fine
          · next same =>
              have at_ : node.offset = offset := Int.ofNat.inj (not_not.mp same)
              cases sub with
              | cons _ sub =>
                  have above := behind node (sub.subset List.mem_cons_self)
                  omega
              | cons_cons _ sub =>
                  rw [next] at fine
                  refine congrArg (first :: ·) (ih later sub (fun frag known => ?_) fine)
                  have member : frag ∈ rest := List.mem_of_getLast? known
                  have whole : (first :: rest).getLast? = some frag := by
                    rw [List.getLast?_cons, known]
                    rfl
                  rcases List.mem_cons.mp (last frag whole) with rfl | inside
                  · exact absurd (behind frag member) (Nat.lt_irrefl _)
                  · exact inside

/-- The nodes behind the head, where the count is theirs. -/
theorem behind_others (ring : Ring) : ring.behind ring.nodes.length = ring.others := by
  have count : ring.nodes.length = ring.others.length + 1 := rfl
  apply List.ext_getElem
  · rw [Ring.behind, List.length_map, List.length_range, count, Nat.add_sub_cancel]
  · intro i inside upTo
    have within : i + 1 < ring.nodes.length := by omega
    simp only [Ring.behind, List.getElem_map, List.getElem_range]
    rw [Nat.mod_eq_of_lt within, List.getD_eq_getElem _ _ within]
    rfl

theorem check_finish (ring : Ring) :
    0 < ipFragCheckFinish ring ring.nodes.length ↔ 0 < checkLoop 0 ring.nodes := by
  rw [ipFragCheckFinish, behind_others, Ring.nodes, checkLoop, Int.zero_add]
  by_cases begins : ring.head.offset = 0
  · have same : (ring.head.offset : Int) = 0 := by omega
    rw [if_neg (not_not.mpr begins), if_neg (not_not.mpr same)]
  · have other : (ring.head.offset : Int) ≠ 0 := by omega
    rw [if_pos begins, if_pos other]
    exact iff_of_false (by decide) (by decide)

end Finish

section Merge

/-- The payload of a fragment, as its frame has it. -/
def Fragment.payload (frag : Fragment) : List UInt8 :=
  readBytes frag.ethData (DEF_MAC_SIZE + frag.wIPHeaderLen) frag.size.toNat

/-- The bytes that the payloads of the fragments take. -/
def payloadSize (frags : List Fragment) : Nat := (frags.map fun frag => frag.size.toNat).sum

theorem merge_loop {maxoffset : Nat} {frags : List Fragment} (positive : ∀ frag ∈ frags, 0 < frag.size)
    (len : Int) (merged : Merged) (fits : merged.lastoffset + payloadSize frags ≤ maxoffset) :
    ∃ len' lastoffset, mergeLoop maxoffset frags len merged =
      some (some (len',
        { merged with
          lastoffset := lastoffset
          ethData := merged.ethData ++ frags.flatMap Fragment.payload })) := by
  induction frags generalizing len merged with
  | nil =>
      refine ⟨len, merged.lastoffset, ?_⟩
      rw [mergeLoop, List.flatMap_nil, List.append_nil]
  | cons frag rest ih =>
      have size := positive frag List.mem_cons_self
      rw [payloadSize, List.map_cons, List.sum_cons] at fits
      rw [mergeLoop, if_neg (Int.not_lt.mpr (Int.le_of_lt size)), if_neg (by omega)]
      obtain ⟨len', lastoffset, same⟩ := ih (fun other member => positive other (List.mem_cons_of_mem _ member))
        (s32 (len + frag.size))
        { merged with
          lastoffset := merged.lastoffset + frag.size.toNat
          ethData := merged.ethData ++ frag.payload } (by
            rw [payloadSize]
            dsimp only
            omega)
      refine ⟨len', lastoffset, same.trans ?_⟩
      rw [List.flatMap_cons, ← List.append_assoc]

/-- The room that the node of the whole datagram needs. -/
def wholeSize (sizes : Sizes) (first : Fragment) (rest : List Fragment) : Nat :=
  NIFO_SIZE + TLV_SIZE + sizes.capHrdLen + TLV_SIZE + sizes.infoEthSize + TLV_SIZE + first.datalen +
    payloadSize rest

/-- The node has the first frame and the other payloads behind it. -/
theorem merge_whole {sizes : Sizes} {maxoffset : Nat} {ring : Ring} (pRST : Nat)
    (positive : ∀ frag ∈ ring.others, 0 < frag.size)
    (fits : wholeSize sizes ring.head ring.others ≤ maxoffset) :
    ∃ merged, ipFragMerge sizes maxoffset ring ring.nodes.length pRST = some (some merged) ∧
      merged.pRST = pRST ∧ merged.head = ring.head ∧
      merged.ethData = readBytes ring.head.ethData 0 ring.head.datalen ++ ring.others.flatMap Fragment.payload := by
  rw [wholeSize] at fits
  rw [ipFragMerge, behind_others]
  dsimp only
  rw [if_neg (by omega), if_neg (by omega), if_neg (by omega)]
  obtain ⟨len, lastoffset, loop⟩ := merge_loop positive ring.head.wDataLen
    { pRST := pRST
      head := ring.head
      wDataLen := ring.head.wDataLen
      datalen := ring.head.datalen
      lastoffset := NIFO_SIZE + TLV_SIZE + sizes.capHrdLen + TLV_SIZE + sizes.infoEthSize + TLV_SIZE +
        ring.head.datalen
      ethData := readBytes ring.head.ethData 0 ring.head.datalen } fits
  rw [loop]
  exact ⟨_, rfl, rfl, rfl, rfl⟩

end Merge

end Upst.PreaFrag
