import Mathlib.Data.List.Basic
import Mathlib.Data.UInt
import Mathlib.Tactic.Tauto

/-!
The dot segments of a URL. The path behind the root is copied byte by byte; a parent
segment takes the copy back to the slash before its last complete segment.
-/

namespace Upst.UrlPath

set_option autoImplicit false

section Source

/-- `getLastDir`: the last slash among the first `count` bytes from the root on. -/
def getLastDir (text : List UInt8) : Nat → Option Nat
  | 0 => none
  | count + 1 => if text[count]? = some 47 then some count else getLastDir text count

/-- The copy of a parent segment: back behind the slash found two bytes or more before its
end, when there is one in what was read and in the copy, and otherwise the segment itself. -/
def parentDir (done out : List UInt8) : List UInt8 :=
  match getLastDir done (done.length - 1) with
  | none => out ++ [46, 46, 47]
  | some _ =>
      match getLastDir out (out.length - 1) with
      | none => out ++ [46, 46, 47]
      | some lasturl => out.take (lasturl + 1)

/-- The loop over `[tarurl, endurl)`. `done` is what was read from the root on, and `out` the
bytes from `returltop` to `returl`. -/
def rearrangeLoop : List UInt8 → List UInt8 → List UInt8 → List UInt8
  | [], _, out => out
  | byte :: rest, done, out =>
      if byte = 46 ∧ rest.head? = some 47 then
        rearrangeLoop (rest.drop 1) (done ++ [46, 47]) out
      else if byte = 46 ∧ rest.take 2 = [46, 47] then
        rearrangeLoop (rest.drop 2) (done ++ [46, 46, 47]) (parentDir done out)
      else rearrangeLoop rest (done ++ [byte]) (out ++ [byte])
termination_by text => text.length
decreasing_by
  · simp only [List.length_drop, List.length_cons]
    omega
  · simp only [List.length_drop, List.length_cons]
    omega
  · exact Nat.lt_succ_self _

/-- `strncpy`, with the bytes behind the string zeroed. -/
def strncpy (text : List UInt8) (n : Nat) : List UInt8 :=
  let copy := (text.take n).takeWhile (· ≠ 0)
  copy ++ List.replicate (n - copy.length) 0

/-- The value returned and the string in `returl`, for a URL `[tarurl, endurl)` with its root
at an offset. -/
def rearrangeUrl (tarurl : List UInt8) (topdir : Nat) : Int16 × List UInt8 :=
  let returl := strncpy tarurl topdir ++ rearrangeLoop (tarurl.drop topdir) [] []
  (Int16.ofNat returl.length, returl)

end Source

section Search

theorem last_dir_some {text : List UInt8} {count place : Nat}
    (found : getLastDir text count = some place) : place < count ∧ text[place]? = some 47 := by
  induction count with
  | zero => cases found
  | succ count ih =>
      rw [getLastDir] at found
      split at found
      · next slash =>
          cases found
          exact ⟨Nat.lt_succ_self _, slash⟩
      · exact ⟨(ih found).1.trans (Nat.lt_succ_self _), (ih found).2⟩

theorem last_dir_none {text : List UInt8} {count : Nat} :
    getLastDir text count = none ↔ 47 ∉ text.take count := by
  induction count with
  | zero => simp [getLastDir]
  | succ count ih =>
      rw [getLastDir, List.take_add_one, List.mem_append, Option.mem_toList]
      by_cases slash : text[count]? = some 47
      · simp [slash]
      · rw [if_neg slash, ih]
        simp only [slash, or_false]

/-- Bytes without a slash behind a slash are passed over. -/
theorem last_dir_back {front last more : List UInt8} (noSlash : 47 ∉ last) :
    getLastDir (front ++ 47 :: last ++ more) (front.length + 1 + last.length) =
      some front.length := by
  induction last using List.reverseRecOn generalizing more with
  | nil =>
      rw [List.length_nil, Nat.add_zero, getLastDir, if_pos]
      simp
  | append_singleton last byte ih =>
      have parts : 47 ∉ last ∧ 47 ≠ byte := by simpa using noSlash
      have here : (front ++ 47 :: (last ++ [byte]) ++ more)[front.length + 1 + last.length]? =
          some byte := by
        have shape : front ++ 47 :: (last ++ [byte]) ++ more =
            (front ++ 47 :: last) ++ byte :: more := by simp
        have place : front.length + 1 + last.length = (front ++ 47 :: last).length := by
          rw [List.length_append, List.length_cons]
          omega
        rw [shape, place, List.getElem?_append_right (Nat.le_refl _), Nat.sub_self]
        rfl
      rw [List.length_append, List.length_singleton, ← Nat.add_assoc, getLastDir, here, if_neg]
      · have next := @ih (byte :: more) parts.1
        simpa using next
      · intro same
        exact parts.2 (Option.some.inj same).symm

end Search

section Segments

/-- Complete segments, each with its slash. -/
def joined (segments : List (List UInt8)) : List UInt8 :=
  segments.flatMap (· ++ [47])

/-- The complete segments of a path and the text behind the last slash. -/
def pathSegments : List UInt8 → List (List UInt8) × List UInt8
  | [] => ([], [])
  | byte :: rest =>
      if byte = 47 then ([] :: (pathSegments rest).1, (pathSegments rest).2)
      else
        match (pathSegments rest).1 with
        | [] => ([], byte :: (pathSegments rest).2)
        | segment :: others => ((byte :: segment) :: others, (pathSegments rest).2)

/-- A segment that is `.` goes; one that is `..` takes the last segment kept with it, but not
the first one, and stays where there is no other. -/
def resolveSegment (kept : List (List UInt8)) (segment : List UInt8) : List (List UInt8) :=
  if segment = [46] then kept
  else if segment = [46, 46] ∧ 2 ≤ kept.length then kept.dropLast
  else kept ++ [segment]

def resolved (path : List UInt8) : List UInt8 :=
  joined ((pathSegments path).1.foldl resolveSegment []) ++ (pathSegments path).2

/-- No complete segment but the dot segments ends in a dot. -/
def DotsApart (path : List UInt8) : Prop :=
  ∀ segment ∈ (pathSegments path).1,
    segment = [46] ∨ segment = [46, 46] ∨ segment.getLast? ≠ some 46

theorem joined_segments (path : List UInt8) :
    joined (pathSegments path).1 ++ (pathSegments path).2 = path := by
  induction path with
  | nil => rfl
  | cons byte rest ih =>
      rw [pathSegments]
      by_cases slash : byte = 47
      · rw [if_pos slash, slash]
        exact congrArg (List.cons 47) ih
      · rw [if_neg slash]
        cases segments : (pathSegments rest).1 with
        | nil =>
            rw [segments] at ih
            exact congrArg (List.cons byte) ih
        | cons segment others =>
            rw [segments] at ih
            exact congrArg (List.cons byte) ih

theorem segments_no_slash (path : List UInt8) :
    (∀ segment ∈ (pathSegments path).1, 47 ∉ segment) ∧ 47 ∉ (pathSegments path).2 := by
  induction path with
  | nil => simp [pathSegments]
  | cons byte rest ih =>
      obtain ⟨complete, last⟩ := ih
      rw [pathSegments]
      by_cases slash : byte = 47
      · rw [if_pos slash]
        refine ⟨?_, last⟩
        intro segment member
        rcases List.mem_cons.mp member with rfl | behind
        · exact List.not_mem_nil
        · exact complete segment behind
      · have other : ¬47 = byte := fun same => slash same.symm
        rw [if_neg slash]
        cases segments : (pathSegments rest).1 with
        | nil =>
            refine ⟨fun segment member => absurd member List.not_mem_nil, ?_⟩
            simp only [List.mem_cons, other, last, or_self, not_false_eq_true]
        | cons segment others =>
            rw [segments] at complete
            refine ⟨?_, last⟩
            intro found member
            rcases List.mem_cons.mp member with rfl | behind
            · have noSlash := complete segment List.mem_cons_self
              simp only [List.mem_cons, other, noSlash, or_self, not_false_eq_true]
            · exact complete found (List.mem_cons_of_mem _ behind)

end Segments

section Loop

theorem loop_here {rest done out : List UInt8} (slash : rest.head? = some 47) :
    rearrangeLoop (46 :: rest) done out =
      rearrangeLoop (rest.drop 1) (done ++ [46, 47]) out := by
  rw [rearrangeLoop, if_pos ⟨rfl, slash⟩]

theorem loop_parent (rest done out : List UInt8) :
    rearrangeLoop (46 :: 46 :: 47 :: rest) done out =
      rearrangeLoop rest (done ++ [46, 46, 47]) (parentDir done out) := by
  rw [rearrangeLoop, if_neg (by simp), if_pos ⟨rfl, rfl⟩]
  rfl

theorem loop_copy {byte : UInt8} {rest : List UInt8} (done out : List UInt8)
    (plain : byte = 46 → rest.head? ≠ some 47 ∧ rest.take 2 ≠ [46, 47]) :
    rearrangeLoop (byte :: rest) done out =
      rearrangeLoop rest (done ++ [byte]) (out ++ [byte]) := by
  rw [rearrangeLoop, if_neg fun both => (plain both.1).1 both.2,
    if_neg fun both => (plain both.1).2 both.2]

/-- Text without a slash is copied, when it does not end in a dot before a slash. -/
theorem loop_text {text rest : List UInt8} (done out : List UInt8) (noSlash : 47 ∉ text)
    (ends : rest = [] ∨ text.getLast? ≠ some 46) :
    rearrangeLoop (text ++ rest) done out = rearrangeLoop rest (done ++ text) (out ++ text) := by
  induction text generalizing done out with
  | nil => rw [List.nil_append, List.append_nil, List.append_nil]
  | cons byte text ih =>
      obtain ⟨here, others⟩ : 47 ≠ byte ∧ 47 ∉ text := by simpa using noSlash
      rw [List.cons_append, loop_copy done out, ih _ _ others, List.append_assoc, List.append_assoc]
      · rfl
      · rcases ends with stops | last
        · exact Or.inl stops
        · cases text with
          | nil => exact Or.inr (by simp)
          | cons next text => exact Or.inr (by simpa using last)
      · rintro rfl
        have apart (other : UInt8) (member : other ∈ text) : other ≠ 47 :=
          fun same => others (same ▸ member)
        rcases text with _ | ⟨first, text⟩
        · rcases ends with rfl | last
          · simp
          · simp at last
        · have firstApart := apart first List.mem_cons_self
          refine ⟨by simpa using firstApart, ?_⟩
          intro pair
          rcases text with _ | ⟨second, text⟩
          · rcases ends with rfl | last
            · simp at pair
            · obtain ⟨rfl, -⟩ : first = 46 ∧ rest.take 1 = [47] := by simpa using pair
              simp at last
          · obtain ⟨-, same⟩ : first = 46 ∧ second = 47 := by simpa using pair
            exact apart second (by simp) same

/-- The slash that ends a segment is copied. -/
theorem loop_slash (rest done out : List UInt8) :
    rearrangeLoop (47 :: rest) done out =
      rearrangeLoop rest (done ++ [47]) (out ++ [47]) := by
  refine loop_copy done out ?_
  intro dot
  exact absurd dot (by decide)

theorem joined_append (segments others : List (List UInt8)) :
    joined (segments ++ others) = joined segments ++ joined others := by
  rw [joined, List.flatMap_append]
  rfl

theorem joined_singleton (segment : List UInt8) : joined [segment] = segment ++ [47] := by
  rw [joined, List.flatMap_cons, List.flatMap_nil, List.append_nil]

/-- Two segments or more leave a slash before the last one, fewer leave none. -/
theorem parent_search {segments : List (List UInt8)}
    (noSlash : ∀ segment ∈ segments, 47 ∉ segment) :
    getLastDir (joined segments) ((joined segments).length - 1) =
      if 2 ≤ segments.length then some ((joined segments.dropLast).length - 1) else none := by
  rcases segments.eq_nil_or_concat with rfl | ⟨others, last, rfl⟩
  · rfl
  · have lastNoSlash := noSlash last (by simp)
    rw [List.concat_eq_append, joined_append, joined_singleton, List.dropLast_concat]
    rcases others.eq_nil_or_concat with rfl | ⟨front, before, rfl⟩
    · rw [if_neg (by simp), last_dir_none]
      simpa [joined] using lastNoSlash
    · have found := @last_dir_back (joined front ++ before) last [47] lastNoSlash
      have shape : joined (front.concat before) ++ (last ++ [47]) =
          joined front ++ before ++ 47 :: last ++ [47] := by
        simp [joined_append, joined_singleton]
      have size : (joined (front.concat before) ++ (last ++ [47])).length - 1 =
          (joined front ++ before).length + 1 + last.length := by
        rw [shape]
        simp only [List.length_append, List.length_cons, List.length_nil]
        omega
      have place : (joined (front.concat before)).length - 1 = (joined front ++ before).length := by
        simp [joined_append, joined_singleton, ← Nat.add_assoc]
      rw [if_pos (by simp), size, shape, place]
      exact found

theorem resolve_parent (kept : List (List UInt8)) :
    resolveSegment kept [46, 46] =
      if 2 ≤ kept.length then kept.dropLast else kept ++ [[46, 46]] := by
  simp [resolveSegment]

theorem parent_dir_joined {consumed kept : List (List UInt8)}
    (consumedApart : ∀ segment ∈ consumed, 47 ∉ segment)
    (keptApart : ∀ segment ∈ kept, 47 ∉ segment) (fewer : kept.length ≤ consumed.length) :
    parentDir (joined consumed) (joined kept) = joined (resolveSegment kept [46, 46]) := by
  rw [parentDir, parent_search consumedApart, parent_search keptApart, resolve_parent]
  by_cases two : 2 ≤ kept.length
  · rw [if_pos (two.trans fewer), if_pos two, if_pos two]
    show (joined kept).take _ = _
    obtain ⟨others, last, rfl⟩ := (kept.eq_nil_or_concat).resolve_left
      (List.ne_nil_of_length_pos (by omega))
    obtain ⟨front, before, rfl⟩ := (others.eq_nil_or_concat).resolve_left (by
      rintro rfl
      simp at two)
    have filled : 0 < (joined (front.concat before)).length := by
      rw [List.concat_eq_append, joined_append, joined_singleton]
      simp only [List.length_append, List.length_singleton]
      omega
    rw [@List.concat_eq_append _ (front.concat before), List.dropLast_concat,
      Nat.sub_add_cancel filled, joined_append, List.take_left]
  · rw [if_neg two, if_neg two, joined_append, joined_singleton]
    split <;> rfl

theorem resolve_apart {kept : List (List UInt8)} {segment : List UInt8}
    (keptApart : ∀ other ∈ kept, 47 ∉ other) (noSlash : 47 ∉ segment) :
    ∀ other ∈ resolveSegment kept segment, 47 ∉ other := by
  intro other member
  rw [resolveSegment] at member
  split at member
  · exact keptApart other member
  · split at member
    · exact keptApart other (List.mem_of_mem_dropLast member)
    · rcases List.mem_append.mp member with before | same
      · exact keptApart other before
      · rw [List.mem_singleton.mp same]
        exact noSlash

theorem resolve_length (kept : List (List UInt8)) (segment : List UInt8) :
    (resolveSegment kept segment).length ≤ kept.length + 1 := by
  rw [resolveSegment]
  split
  · exact Nat.le_succ _
  · split
    · rw [List.length_dropLast]
      omega
    · simp

/-- One segment with its slash. -/
theorem loop_segment {consumed kept : List (List UInt8)} {segment : List UInt8}
    (rest : List UInt8) (consumedApart : ∀ other ∈ consumed, 47 ∉ other)
    (keptApart : ∀ other ∈ kept, 47 ∉ other) (fewer : kept.length ≤ consumed.length)
    (noSlash : 47 ∉ segment)
    (apart : segment = [46] ∨ segment = [46, 46] ∨ segment.getLast? ≠ some 46) :
    rearrangeLoop (segment ++ 47 :: rest) (joined consumed) (joined kept) =
      rearrangeLoop rest (joined (consumed ++ [segment])) (joined (resolveSegment kept segment)) := by
  rcases apart with rfl | rfl | ends
  · rw [joined_append, joined_singleton]
    exact loop_here rfl
  · rw [joined_append, joined_singleton, ← parent_dir_joined consumedApart keptApart fewer]
    exact loop_parent rest (joined consumed) (joined kept)
  · have here : segment ≠ [46] := by
      rintro rfl
      exact ends rfl
    have parent : ¬(segment = [46, 46] ∧ 2 ≤ kept.length) := by
      rintro ⟨rfl, -⟩
      exact ends rfl
    rw [resolveSegment, if_neg here, if_neg parent, joined_append, joined_append,
      joined_singleton, loop_text _ _ noSlash (Or.inr ends), loop_slash, List.append_assoc,
      List.append_assoc]

theorem loop_path {segments consumed kept : List (List UInt8)} {last : List UInt8}
    (consumedApart : ∀ other ∈ consumed, 47 ∉ other) (keptApart : ∀ other ∈ kept, 47 ∉ other)
    (fewer : kept.length ≤ consumed.length) (noSlash : ∀ segment ∈ segments, 47 ∉ segment)
    (lastNoSlash : 47 ∉ last)
    (apart : ∀ segment ∈ segments,
      segment = [46] ∨ segment = [46, 46] ∨ segment.getLast? ≠ some 46) :
    rearrangeLoop (joined segments ++ last) (joined consumed) (joined kept) =
      joined (segments.foldl resolveSegment kept) ++ last := by
  induction segments generalizing consumed kept with
  | nil =>
      have copied := @loop_text last [] (joined consumed) (joined kept) lastNoSlash (Or.inl rfl)
      rw [List.append_nil] at copied
      rw [joined, List.flatMap_nil, List.nil_append, List.foldl_nil]
      exact copied.trans (by rw [rearrangeLoop])
  | cons segment others ih =>
      have segmentNoSlash := noSlash segment List.mem_cons_self
      have shape : joined (segment :: others) ++ last =
          segment ++ 47 :: (joined others ++ last) := by
        simp [joined]
      rw [shape, loop_segment _ consumedApart keptApart fewer segmentNoSlash
        (apart segment List.mem_cons_self), List.foldl_cons]
      apply ih
      · intro other member
        rcases List.mem_append.mp member with before | same
        · exact consumedApart other before
        · rw [List.mem_singleton.mp same]
          exact segmentNoSlash
      · exact resolve_apart keptApart segmentNoSlash
      · have grown := resolve_length kept segment
        rw [List.length_append, List.length_singleton]
        omega
      · exact fun other member => noSlash other (List.mem_cons_of_mem _ member)
      · exact fun other member => apart other (List.mem_cons_of_mem _ member)

end Loop

section Settled

/-- Text that the loop leaves as it is: a dot before a slash belongs to a parent segment, and
no parent segment has a directory above it. -/
structure Settled (text : List UInt8) : Prop where
  dots : ∀ front rest, text = front ++ 46 :: 47 :: rest → front.getLast? = some 46
  parents : ∀ front rest, text = front ++ 46 :: 46 :: 47 :: rest → 47 ∉ front.dropLast

/-- A dot at the end of the copy starts no dot segment with what follows. -/
def Clear (out rest : List UInt8) : Prop :=
  out.getLast? = some 46 → rest.head? ≠ some 47 ∧ rest.take 2 ≠ [46, 47]

theorem settled_nil : Settled [] := by
  constructor <;> intro front rest same <;> simp at same

theorem settled_take {text : List UInt8} (settled : Settled text) (count : Nat) :
    Settled (text.take count) := by
  constructor
  · intro front rest same
    have whole := List.take_append_drop count text
    rw [same] at whole
    exact settled.dots front (rest ++ text.drop count) (by simpa using whole.symm)
  · intro front rest same
    have whole := List.take_append_drop count text
    rw [same] at whole
    exact settled.parents front (rest ++ text.drop count) (by simpa using whole.symm)

/-- Only a slash can complete a pattern. -/
theorem settled_append {text : List UInt8} {byte : UInt8} (settled : Settled text)
    (dots : byte = 47 → ∀ front, text = front ++ [46] → front.getLast? = some 46)
    (parents : byte = 47 → ∀ front, text = front ++ [46, 46] → 47 ∉ front.dropLast) :
    Settled (text ++ [byte]) := by
  constructor
  · intro front rest same
    rcases rest.eq_nil_or_concat with rfl | ⟨rest, last, rfl⟩
    · have split : text ++ [byte] = (front ++ [46]) ++ [47] := by simpa using same
      obtain ⟨before, here⟩ := List.append_inj' split rfl
      exact dots (List.cons.inj here).1 front before
    · have split : text ++ [byte] = (front ++ 46 :: 47 :: rest) ++ [last] := by simpa using same
      exact settled.dots front rest (List.append_inj' split rfl).1
  · intro front rest same
    rcases rest.eq_nil_or_concat with rfl | ⟨rest, last, rfl⟩
    · have split : text ++ [byte] = (front ++ [46, 46]) ++ [47] := by simpa using same
      obtain ⟨before, here⟩ := List.append_inj' split rfl
      exact parents (List.cons.inj here).1 front before
    · have split : text ++ [byte] = (front ++ 46 :: 46 :: 47 :: rest) ++ [last] := by
        simpa using same
      exact settled.parents front rest (List.append_inj' split rfl).1

theorem settled_copy {text rest : List UInt8} {byte : UInt8} (settled : Settled text)
    (clear : Clear text (byte :: rest)) : Settled (text ++ [byte]) := by
  refine settled_append settled ?_ ?_
  · rintro rfl front rfl
    exact absurd rfl (clear (by simp)).1
  · rintro rfl front rfl
    exact absurd rfl (clear (by simp)).1

theorem settled_literal {text : List UInt8} (settled : Settled text)
    (top : 47 ∉ text.dropLast) : Settled (text ++ [46, 46, 47]) := by
  have dot (text : List UInt8) (settled : Settled text) : Settled (text ++ [46]) :=
    settled_append settled (fun same => absurd same (by decide))
      (fun same => absurd same (by decide))
  have slash : Settled ((text ++ [46] ++ [46]) ++ [47]) := by
    refine settled_append (dot _ (dot _ settled)) ?_ ?_
    · intro _ front same
      rw [← (List.append_inj' same rfl).1]
      simp
    · intro _ front same
      have split : text ++ [46, 46] = front ++ [46, 46] := by simpa using same
      rw [← (List.append_inj' split rfl).1]
      exact top
  simpa using slash

theorem sublist_dropLast {text other : List UInt8} (copy : text.Sublist other) :
    text.dropLast.Sublist other.dropLast := by
  have reversed := (List.reverse_sublist.mpr copy).tail
  rw [List.tail_reverse, List.tail_reverse] at reversed
  exact List.reverse_sublist.mp reversed

/-- The parent segment is copied only where there is no directory above it. -/
theorem settled_parent {done out : List UInt8} (settled : Settled out) (copy : out.Sublist done) :
    Settled (parentDir done out) := by
  rw [parentDir]
  cases above : getLastDir done (done.length - 1) with
  | none =>
      rw [last_dir_none, ← List.dropLast_eq_take] at above
      exact settled_literal settled fun slash => above ((sublist_dropLast copy).subset slash)
  | some place =>
      cases back : getLastDir out (out.length - 1) with
      | none =>
          rw [last_dir_none, ← List.dropLast_eq_take] at back
          exact settled_literal settled back
      | some lasturl => exact settled_take settled (lasturl + 1)

theorem parent_ends {done out : List UInt8} : (parentDir done out).getLast? = some 47 := by
  rw [parentDir]
  cases getLastDir done (done.length - 1) with
  | none => simp
  | some place =>
      cases back : getLastDir out (out.length - 1) with
      | none => simp
      | some lasturl =>
          have slash := (last_dir_some back).2
          show (out.take (lasturl + 1)).getLast? = some 47
          rw [List.take_add_one, slash]
          simp

theorem parent_sublist {done out : List UInt8} (copy : out.Sublist done) :
    (parentDir done out).Sublist (done ++ [46, 46, 47]) := by
  rw [parentDir]
  cases getLastDir done (done.length - 1) with
  | none => exact copy.append_right _
  | some place =>
      cases getLastDir out (out.length - 1) with
      | none => exact copy.append_right _
      | some lasturl =>
          exact ((List.take_sublist _ _).trans copy).trans (List.sublist_append_left _ _)

theorem clear_slash {out rest : List UInt8} (ends : out.getLast? = some 47) : Clear out rest := by
  intro dot
  rw [ends] at dot
  cases dot

theorem clear_copy {byte : UInt8} {rest : List UInt8} (out : List UInt8)
    (noHere : ¬(byte = 46 ∧ rest.head? = some 47))
    (noParent : ¬(byte = 46 ∧ rest.take 2 = [46, 47])) : Clear (out ++ [byte]) rest := by
  intro dot
  rw [List.getLast?_concat, Option.some.injEq] at dot
  exact ⟨fun slash => noHere ⟨dot, slash⟩, fun parent => noParent ⟨dot, parent⟩⟩

theorem take_parent {rest : List UInt8} (dots : rest.take 2 = [46, 47]) :
    ∃ others, rest = 46 :: 47 :: others := by
  have whole := List.take_append_drop 2 rest
  rw [dots] at whole
  exact ⟨rest.drop 2, whole.symm⟩

/-- What the loop makes is settled, and no longer than what it read. -/
theorem loop_settled {rest done out : List UInt8} (settled : Settled out) (clear : Clear out rest)
    (copy : out.Sublist done) :
    Settled (rearrangeLoop rest done out) ∧
      (rearrangeLoop rest done out).Sublist (done ++ rest) := by
  induction rest, done, out using rearrangeLoop.induct with
  | case1 done out =>
      rw [rearrangeLoop, List.append_nil]
      exact ⟨settled, copy⟩
  | case2 byte rest done out here ih =>
      obtain ⟨rfl, slash⟩ := here
      obtain ⟨others, rfl⟩ := List.head?_eq_some_iff.mp slash
      have next := ih settled (fun dot => absurd rfl (clear dot).2)
        (copy.trans (List.sublist_append_left _ _))
      rw [loop_here slash]
      simpa using next
  | case3 byte rest done out noHere parent ih =>
      obtain ⟨rfl, dots⟩ := parent
      obtain ⟨others, rfl⟩ := take_parent dots
      have next := ih (settled_parent settled copy) (clear_slash parent_ends) (parent_sublist copy)
      rw [loop_parent]
      simpa using next
  | case4 byte rest done out noHere noParent ih =>
      have next := ih (settled_copy settled clear) (clear_copy out noHere noParent)
        (copy.append_right _)
      rw [rearrangeLoop, if_neg noHere, if_neg noParent]
      simpa using next

/-- Settled text is left as it is. -/
theorem loop_fixed {front rest : List UInt8} (settled : Settled (front ++ rest))
    (clear : Clear front rest) : rearrangeLoop rest front front = front ++ rest := by
  induction size : rest.length using Nat.strong_induction_on generalizing front rest with
  | _ length ih =>
      subst size
      cases rest with
      | nil => rw [rearrangeLoop, List.append_nil]
      | cons byte rest =>
          by_cases here : byte = 46 ∧ rest.head? = some 47
          · obtain ⟨rfl, slash⟩ := here
            obtain ⟨others, rfl⟩ := List.head?_eq_some_iff.mp slash
            exact absurd rfl (clear (settled.dots front others rfl)).2
          · by_cases parent : byte = 46 ∧ rest.take 2 = [46, 47]
            · obtain ⟨rfl, dots⟩ := parent
              obtain ⟨others, rfl⟩ := take_parent dots
              have top := settled.parents front others rfl
              rw [List.dropLast_eq_take, ← last_dir_none] at top
              have literal : parentDir front front = front ++ [46, 46, 47] := by
                rw [parentDir, top]
              have shape : front ++ 46 :: 46 :: 47 :: others = (front ++ [46, 46, 47]) ++ others := by
                simp
              rw [loop_parent, literal, shape]
              rw [shape] at settled
              exact ih _ (by simp only [List.length_cons]; omega) settled (clear_slash (by simp)) rfl
            · have shape : front ++ byte :: rest = (front ++ [byte]) ++ rest := by simp
              rw [rearrangeLoop, if_neg here, if_neg parent, shape]
              rw [shape] at settled
              exact ih _ (by simp) settled (clear_copy front here parent) rfl

end Settled

theorem strncpy_string {root path : List UInt8} (string : ∀ byte ∈ root, byte ≠ 0) :
    strncpy (root ++ path) root.length = root := by
  have all : root.takeWhile (· ≠ 0) = root := by
    induction root with
    | nil => rfl
    | cons byte rest ih =>
        have here : decide (byte ≠ 0) = true := decide_eq_true (string byte List.mem_cons_self)
        rw [List.takeWhile_cons, if_pos here,
          ih fun other member => string other (List.mem_cons_of_mem _ member)]
  rw [strncpy, List.take_left, all, Nat.sub_self, List.replicate_zero, List.append_nil]

theorem rearrange_url_eq {root path : List UInt8} (string : ∀ byte ∈ root, byte ≠ 0) :
    (rearrangeUrl (root ++ path) root.length).2 = root ++ rearrangeLoop path [] [] := by
  rw [rearrangeUrl, strncpy_string string, List.drop_left]

/-- The result is the URL up to the root and a path that is no longer than the old one, and
that another call leaves as it is; where only dot segments end in a dot before a slash, it is
the old path with its dot segments resolved. -/
theorem rearrange_url_resolves (root path : List UInt8) (string : ∀ byte ∈ root, byte ≠ 0) :
    ∃ result, (rearrangeUrl (root ++ path) root.length).2 = root ++ result ∧
      result.Sublist path ∧ result.length ≤ path.length ∧
      (rearrangeUrl (root ++ result) root.length).2 = root ++ result ∧
      (DotsApart path → result = resolved path) := by
  have clear (rest : List UInt8) : Clear [] rest := fun dot => absurd dot (by simp)
  obtain ⟨settled, copy⟩ := loop_settled settled_nil (clear path) (List.Sublist.refl [])
  rw [List.nil_append] at copy
  refine ⟨rearrangeLoop path [] [], rearrange_url_eq string, copy, copy.length_le, ?_, ?_⟩
  · rw [rearrange_url_eq string]
    exact congrArg (root ++ ·) (@loop_fixed [] _ settled (clear _))
  · intro apart
    obtain ⟨noSlash, lastNoSlash⟩ := segments_no_slash path
    have none (other : List UInt8) (member : other ∈ ([] : List (List UInt8))) : 47 ∉ other :=
      absurd member List.not_mem_nil
    have walked := @loop_path _ [] [] _ none none (Nat.le_refl _) noSlash lastNoSlash apart
    rw [joined_segments] at walked
    exact walked

/-- `http://h/a/./b/../c`. -/
theorem rearrange_url_brief :
    ∃ result,
      (rearrangeUrl ([104, 116, 116, 112, 58, 47, 47, 104] ++
        [47, 97, 47, 46, 47, 98, 47, 46, 46, 47, 99]) 8).2 =
          [104, 116, 116, 112, 58, 47, 47, 104] ++ result ∧
      result = [47, 97, 47, 99] := by
  obtain ⟨result, returned, -, -, -, resolves⟩ :=
    rearrange_url_resolves [104, 116, 116, 112, 58, 47, 47, 104]
      [47, 97, 47, 46, 47, 98, 47, 46, 46, 47, 99] (by simp)
  refine ⟨result, returned, (resolves ?_).trans (by decide)⟩
  unfold DotsApart
  decide

section Standard

/-- The usual treatment of one more segment: a parent segment at the root goes. -/
def standardSegment (kept : List (List UInt8)) (segment : List UInt8) : List (List UInt8) :=
  if segment = [46] then kept
  else if segment = [46, 46] then (if 2 ≤ kept.length then kept.dropLast else kept)
  else kept ++ [segment]

/-- The usual resolution, in which the text behind the last slash is a segment as well. -/
def standardResolution (path : List UInt8) : List UInt8 :=
  let kept := (pathSegments path).1.foldl standardSegment []
  let last := (pathSegments path).2
  if last = [46] ∨ last = [46, 46] then joined (standardSegment kept last) else joined kept ++ last

end Standard

/-- `http://h/../x`: the parent segment at the root stays. -/
theorem root_parent_stays :
    (rearrangeUrl ([104, 116, 116, 112, 58, 47, 47, 104] ++ [47, 46, 46, 47, 120]) 8).2 ≠
      [104, 116, 116, 112, 58, 47, 47, 104] ++ standardResolution [47, 46, 46, 47, 120] := by
  have whole := @rearrange_url_eq [104, 116, 116, 112, 58, 47, 47, 104] [47, 46, 46, 47, 120]
    (by simp)
  have copied : rearrangeLoop [47, 46, 46, 47, 120] [] [] = [47, 46, 46, 47, 120] := by
    rw [loop_slash, loop_parent, loop_copy _ _ (by decide), rearrangeLoop]
    decide
  rw [copied] at whole
  intro same
  have kept := List.append_cancel_left (whole.symm.trans same)
  revert kept
  decide

end Upst.UrlPath
