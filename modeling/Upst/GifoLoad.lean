import Upst.Gifo

/-!
What the loaders of the GIFO make of two texts that they do not reject: when they stay in the
arrays, and when the groups and the matrices are those of the text.
-/

namespace Upst.Gifo

open Word Mems Cifo

set_option autoImplicit false

section Results

variable {α β State Line : Type} {x : Except Failure α} {f : α → Except Failure β}

/-- The text is not rejected. -/
def Accepted (x : Except Failure α) : Prop := ∀ dRet, x ≠ .error (.rejected dRet)

theorem accepted_bind (accepted : Accepted (x >>= f)) :
    Accepted x ∧ ∀ a, x = .ok a → Accepted (f a) := by
  cases x with
  | error failure =>
      refine ⟨?_, nofun⟩
      intro dRet same
      cases same
      exact accepted dRet rfl
  | ok a =>
      refine ⟨nofun, ?_⟩
      rintro _ ⟨⟩
      exact accepted

theorem bind_inside (first : x ≠ .error .outside) (later : ∀ a, x = .ok a → f a ≠ .error .outside) :
    (x >>= f) ≠ .error .outside := by
  cases x with
  | error failure =>
      intro outside
      apply first
      cases outside
      rfl
  | ok a => exact later a rfl

theorem accepted_ok (accepted : Accepted x) (inside : x ≠ .error .outside) : ∃ a, x = .ok a := by
  cases x with
  | ok a => exact ⟨a, rfl⟩
  | error failure =>
      cases failure with
      | outside => exact absurd rfl inside
      | rejected dRet => exact absurd rfl (accepted dRet)

/-- What each line keeps, the lines keep. -/
theorem fold_reaches {step : State → Line → Except Failure State} {inv : List Line → State → Prop}
    (keeps : ∀ before line state after, inv before state → step state line = .ok after →
      inv (before ++ [line]) after) (lines : List Line) :
    ∀ {before : List Line} {state final : State}, inv before state →
      lines.foldlM step state = .ok final → inv (before ++ lines) final := by
  induction lines with
  | nil =>
      intro before state final start ran
      cases ran
      rwa [List.append_nil]
  | cons line rest ih =>
      intro before state final start ran
      rw [List.foldlM_cons] at ran
      obtain ⟨after, stepped, later⟩ := bind_ok ran
      have kept := ih (keeps before line state after start stepped) later
      rwa [List.append_assoc] at kept

/-- Where no line leaves an array, the lines do not. -/
theorem fold_inside {step : State → Line → Except Failure State} {inv : List Line → State → Prop}
    (keeps : ∀ before line state after, inv before state → step state line = .ok after →
      inv (before ++ [line]) after) {lines : List Line}
    (inside : ∀ before line rest state, before ++ line :: rest = lines → inv before state →
      step state line ≠ .error .outside) (rest : List Line) :
    ∀ {before : List Line} {state : State}, before ++ rest = lines → inv before state →
      rest.foldlM step state ≠ .error .outside := by
  induction rest with
  | nil => exact nofun
  | cons line rest ih =>
      intro before state whole start
      rw [List.foldlM_cons]
      apply bind_inside (inside before line rest state whole start)
      intro after stepped
      apply ih _ (keeps before line state after start stepped)
      rw [← whole, List.append_assoc]
      rfl

end Results

section Numbers

/-- The number of a token, as the loaders read it. -/
def number (token : List Char) : Nat := min (digitsValue token) (2 ^ 64 - 1) % 2 ^ 32

theorem checked_inside {α : Type} (result : Except Int α) : checked result ≠ .error .outside := by
  cases result with
  | error dRet => nofun
  | ok a => nofun

theorem check_number {token : List Char} {flag : CheckFlag} {value : Nat}
    (ok : checked (defaultCheck token flag) = .ok value) : value = number token := by
  cases result : defaultCheck token flag with
  | error dRet =>
      rw [result] at ok
      cases ok
  | ok other =>
      rw [result] at ok
      cases ok
      exact default_check_value result

end Numbers

variable {conf : StCifoConf} {gifo gifo' : StGifo}

section Groups

/-- The channels that the line of a group lists. -/
def declaredChans (line : List Char) : List Nat := (groupTokens (uncomment line)).map number

theorem chan_id_small {index stored : Nat} (read : conf.chanID index = .ok stored) :
    index < MAX_CHAN_CNT := by
  unfold StCifoConf.chanID at read
  split at read
  next small => exact small
  next => cases read

theorem chan_id_inside {index : Nat} (small : index < MAX_CHAN_CNT) :
    conf.chanID index ≠ .error .outside := by
  rw [StCifoConf.chanID, if_pos small]
  nofun

theorem channels_length (group : Group) : group.channels.length = group.uiChCnt := by
  rw [Group.channels, List.length_map, List.length_range]

theorem channels_push (group : Group) (uiChID : Nat) :
    Group.channels { group with
      uiChID := Function.update group.uiChID group.uiChCnt uiChID
      uiChCnt := group.uiChCnt + 1 } = group.channels ++ [uiChID] := by
  have old : ∀ j ∈ List.range group.uiChCnt,
      Function.update group.uiChID group.uiChCnt uiChID j = group.uiChID j := by
    intro j member
    exact Function.update_of_ne (Nat.ne_of_lt (List.mem_range.mp member)) ..
  have own : Function.update group.uiChID group.uiChCnt uiChID group.uiChCnt = uiChID :=
    Function.update_self ..
  rw [Group.channels, List.range_succ, List.map_append, List.map_congr_left old]
  exact congrArg (fun last => group.channels ++ [last]) own

/-- A group whose list has grown by the tokens. -/
structure Pushed (gifo : StGifo) (tokens : List (List Char)) (gifo' : StGifo) (group : Group) :
    Prop where
  after : gifo' = gifo.setGroup gifo.uiGrCnt group
  uiGrID : group.uiGrID = (gifo.stGROUP gifo.uiGrCnt).uiGrID
  channels : group.channels = (gifo.stGROUP gifo.uiGrCnt).channels ++ tokens.map number
  small : ∀ token ∈ tokens, number token < MAX_CHAN_CNT
  room : tokens ≠ [] → group.uiChCnt ≤ MAX_CHAN_CNT

theorem group_chan_ok {token : List Char} (ran : groupChan conf gifo token = .ok gifo') :
    number token < MAX_CHAN_CNT ∧ (gifo.stGROUP gifo.uiGrCnt).uiChCnt < MAX_CHAN_CNT ∧
      gifo' = gifo.setGroup gifo.uiGrCnt { gifo.stGROUP gifo.uiGrCnt with
        uiChID := Function.update (gifo.stGROUP gifo.uiGrCnt).uiChID
          (gifo.stGROUP gifo.uiGrCnt).uiChCnt (number token)
        uiChCnt := (gifo.stGROUP gifo.uiGrCnt).uiChCnt + 1 } := by
  obtain ⟨uiChID, read, ran⟩ := bind_ok ran
  obtain rfl := check_number read
  obtain ⟨found, -, ran⟩ := bind_ok ran
  split at ran
  · cases ran
  · obtain ⟨stored, inArray, ran⟩ := bind_ok ran
    split at ran
    · cases ran
    · split at ran
      · cases ran
      · dsimp only at ran
        split at ran
        · cases ran
        · split at ran
          · cases ran
          · cases ran
            exact ⟨chan_id_small inArray, by omega, rfl⟩

theorem set_group_again (gifo : StGifo) (index : Nat) (group group' : Group) :
    (gifo.setGroup index group).setGroup index group' = gifo.setGroup index group' := by
  simp only [StGifo.setGroup, Function.update_idem]

theorem set_group_self (gifo : StGifo) (index : Nat) :
    gifo.setGroup index (gifo.stGROUP index) = gifo := by
  rw [StGifo.setGroup, Function.update_eq_self]

theorem group_chans_keep (before : List (List Char)) (token : List Char) (state after : StGifo)
    (pushed : ∃ group, Pushed gifo before state group) (ran : groupChan conf state token = .ok after) :
    ∃ group, Pushed gifo (before ++ [token]) after group := by
  obtain ⟨group, pushed⟩ := pushed
  obtain ⟨small, room, rfl⟩ := group_chan_ok ran
  obtain rfl := pushed.after
  have own : (gifo.setGroup gifo.uiGrCnt group).stGROUP gifo.uiGrCnt = group :=
    Function.update_self ..
  have own' : (gifo.setGroup gifo.uiGrCnt group).stGROUP
      (gifo.setGroup gifo.uiGrCnt group).uiGrCnt = group := own
  rw [own'] at room ⊢
  refine ⟨_, set_group_again .., pushed.uiGrID, ?_, ?_, fun _ => room⟩
  · rw [channels_push, pushed.channels, List.map_append, List.append_assoc]
    rfl
  · intro other member
    rcases List.mem_append.mp member with old | new
    · exact pushed.small other old
    · rw [List.mem_singleton.mp new]
      exact small

theorem pushed_nil (gifo : StGifo) : Pushed gifo [] gifo (gifo.stGROUP gifo.uiGrCnt) := by
  refine ⟨(set_group_self ..).symm, rfl, ?_, nofun, fun nonempty => absurd rfl nonempty⟩
  rw [List.map_nil, List.append_nil]

theorem group_init_ok {line : List Char} (ran : gifoGroupInit conf gifo (uncomment line) = .ok gifo') :
    gifo.uiGrCnt < MAX_GROUP_CNT ∧ ∃ group,
      gifo' = { gifo.setGroup gifo.uiGrCnt group with uiGrCnt := gifo.uiGrCnt + 1 } ∧
        group.uiGrID = gifo.uiGrCnt ∧
        group.channels = (gifo.stGROUP gifo.uiGrCnt).channels ++ declaredChans line ∧
        (∀ uiChID ∈ declaredChans line, uiChID < MAX_CHAN_CNT) ∧
        (declaredChans line ≠ [] → group.uiChCnt ≤ MAX_CHAN_CNT) := by
  unfold gifoGroupInit at ran
  split at ran
  · cases ran
  · obtain ⟨uiGrID, -, ran⟩ := bind_ok ran
    split at ran
    · cases ran
    next own =>
      obtain ⟨filled, turns, ran⟩ := bind_ok ran
      obtain ⟨group, pushed⟩ := @fold_reaches _ _ (groupChan conf)
        (fun tokens state => ∃ group, Pushed gifo tokens state group) group_chans_keep _ [] gifo _
        ⟨_, pushed_nil gifo⟩ turns
      obtain rfl := pushed.after
      have count : (gifo.setGroup gifo.uiGrCnt group).uiGrCnt = gifo.uiGrCnt := rfl
      have stored : (gifo.setGroup gifo.uiGrCnt group).stGROUP gifo.uiGrCnt = group :=
        Function.update_self ..
      rw [count, stored] at ran
      split at ran
      · cases ran
      next few =>
        dsimp only at ran
        split at ran
        · cases ran
        · cases ran
          refine ⟨Nat.lt_of_not_le few, { group with uiGrID := uiGrID }, ?_,
            (not_not.mp own).symm, pushed.channels, ?_, ?_⟩
          · rw [set_group_again]
          · intro uiChID member
            obtain ⟨token, inside, rfl⟩ := List.mem_map.mp member
            exact pushed.small token inside
          · intro nonempty
            apply pushed.room
            rintro empty
            rw [List.nil_append] at empty
            rw [declaredChans, empty] at nonempty
            exact nonempty rfl

end Groups

section GroupLines

variable {stGROUP : Nat → Group} {lines : List (List Char)} {line : List Char}

/-- The lines of the groups, as they are loaded. -/
structure Grouped (stGROUP : Nat → Group) (lines : List (List Char)) (gifo : StGifo) : Prop where
  count : gifo.uiGrCnt = lines.length
  few : lines.length ≤ MAX_GROUP_CNT
  matrixCh : gifo.uiMatrixChID = fun _ => INVALID_ID
  matrixGr : gifo.uiMatrixGrID = fun _ => INVALID_ID
  rest : ∀ index, lines.length ≤ index → gifo.stGROUP index = stGROUP index
  channels : ∀ index line, lines[index]? = some line →
    (gifo.stGROUP index).channels = (stGROUP index).channels ++ declaredChans line
  small : ∀ line ∈ lines, ∀ uiChID ∈ declaredChans line, uiChID < MAX_CHAN_CNT
  room : ∀ index line, lines[index]? = some line → declaredChans line ≠ [] →
    (gifo.stGROUP index).uiChCnt ≤ MAX_CHAN_CNT

theorem grouped_start (stGROUP : Nat → Group) : Grouped stGROUP [] (gifoStart stGROUP) := by
  refine ⟨rfl, Nat.zero_le _, rfl, rfl, fun _ _ => rfl, ?_, nofun, ?_⟩
  · intro index line found
    cases found
  · intro index line found
    cases found

/-- What holds of each line before and of the new one holds of all. -/
theorem snoc_each {P : Nat → List Char → Prop}
    (before : ∀ index line, lines[index]? = some line → P index line) (new : P lines.length line) :
    ∀ index other, (lines ++ [line])[index]? = some other → P index other := by
  intro index other found
  by_cases old : index < lines.length
  · rw [List.getElem?_append_left old] at found
    exact before index other found
  · rw [List.getElem?_append_right (Nat.le_of_not_lt old)] at found
    have last : index - lines.length = 0 := by
      by_contra beyond
      rw [List.getElem?_eq_none (by rw [List.length_singleton]; omega)] at found
      cases found
    rw [last] at found
    cases found
    have index_eq : index = lines.length := by omega
    rw [index_eq]
    exact new

theorem grouped_line (before : List (List Char)) (line : List Char) (gifo gifo' : StGifo)
    (grouped : Grouped stGROUP before gifo)
    (ran : gifoGroupInit conf gifo (uncomment line) = .ok gifo') :
    Grouped stGROUP (before ++ [line]) gifo' := by
  obtain ⟨few, group, rfl, -, channels, small, room⟩ := group_init_ok ran
  rw [grouped.count, grouped.rest _ (Nat.le_refl _)] at channels
  have own : Function.update gifo.stGROUP gifo.uiGrCnt group before.length = group := by
    rw [grouped.count]
    exact Function.update_self ..
  have others : ∀ index, index ≠ before.length →
      Function.update gifo.stGROUP gifo.uiGrCnt group index = gifo.stGROUP index := by
    intro index other
    rw [grouped.count]
    exact Function.update_of_ne other ..
  have old : ∀ {index : Nat} {line : List Char}, before[index]? = some line →
      index ≠ before.length := by
    rintro index line found rfl
    rw [List.getElem?_eq_none (Nat.le_refl _)] at found
    cases found
  refine ⟨?_, ?_, grouped.matrixCh, grouped.matrixGr, ?_, snoc_each ?_ ?_, ?_, snoc_each ?_ ?_⟩
  · rw [List.length_append, List.length_singleton]
    exact congrArg (· + 1) grouped.count
  · rw [List.length_append, List.length_singleton, ← grouped.count]
    exact few
  · intro index beyond
    rw [List.length_append, List.length_singleton] at beyond
    show Function.update gifo.stGROUP gifo.uiGrCnt group index = _
    rw [others index (by omega)]
    exact grouped.rest index (by omega)
  · intro index line found
    show (Function.update gifo.stGROUP gifo.uiGrCnt group index).channels = _
    rw [others index (old found)]
    exact grouped.channels index line found
  · show (Function.update gifo.stGROUP gifo.uiGrCnt group before.length).channels = _
    rw [own]
    exact channels
  · intro other member
    rcases List.mem_append.mp member with earlier | new
    · exact grouped.small other earlier
    · rw [List.mem_singleton.mp new]
      exact small
  · intro index line found
    show _ → (Function.update gifo.stGROUP gifo.uiGrCnt group index).uiChCnt ≤ _
    rw [others index (old found)]
    exact grouped.room index line found
  · show _ → (Function.update gifo.stGROUP gifo.uiGrCnt group before.length).uiChCnt ≤ _
    rw [own]
    exact room

/-- The line of a group has room for its list, which names channels that there are. -/
def ListFits (channels : Nat) (line : List Char) : Prop :=
  (declaredChans line).length ≤ MAX_CHAN_CNT ∧ ∀ uiChID ∈ declaredChans line, uiChID < channels

theorem lists_inside {group : Group} (room : group.uiChCnt ≤ MAX_CHAN_CNT) (uiChID : Nat) :
    group.lists uiChID ≠ .error .outside := by
  unfold Group.lists
  split
  · nofun
  · rw [if_neg (Nat.not_lt.mpr room)]
    nofun

theorem any_inside {α : Type} {test : α → Except Failure Bool} (indices : List α)
    (inside : ∀ index ∈ indices, test index ≠ .error .outside) :
    indices.anyM test ≠ .error .outside := by
  induction indices with
  | nil => nofun
  | cons index rest ih =>
      rw [List.anyM_cons]
      apply bind_inside (inside index List.mem_cons_self)
      intro found _
      cases found with
      | true => nofun
      | false => exact ih fun other member => inside other (List.mem_cons_of_mem _ member)

theorem group_chan_inside {token : List Char} (few : gifo.uiGrCnt < MAX_GROUP_CNT)
    (others : ∀ index < gifo.uiGrCnt, (gifo.stGROUP index).uiChCnt ≤ MAX_CHAN_CNT)
    (room : (gifo.stGROUP gifo.uiGrCnt).uiChCnt < MAX_CHAN_CNT)
    (small : number token < MAX_CHAN_CNT) : groupChan conf gifo token ≠ .error .outside := by
  apply bind_inside (checked_inside _)
  intro uiChID read
  obtain rfl := check_number read
  apply bind_inside
  · apply any_inside
    intro index member
    have before := List.mem_range.mp member
    rw [if_pos (Nat.lt_trans before few)]
    exact lists_inside (others index before) _
  · intro found _
    cases found with
    | true => nofun
    | false =>
        rw [if_neg Bool.false_ne_true]
        apply bind_inside (chan_id_inside small)
        intro stored _
        split
        · nofun
        · rw [if_neg (Nat.not_le.mpr few)]
          dsimp only
          rw [if_neg (Nat.not_lt.mpr (Nat.le_of_lt room)), if_neg (Nat.ne_of_lt room)]
          nofun

theorem group_init_inside {channels : Nat} (few : gifo.uiGrCnt < MAX_GROUP_CNT)
    (others : ∀ index < gifo.uiGrCnt, (gifo.stGROUP index).uiChCnt ≤ MAX_CHAN_CNT)
    (clear : (gifo.stGROUP gifo.uiGrCnt).uiChCnt = 0) (known : channels ≤ MAX_CHAN_CNT)
    (fits : ListFits channels line) : gifoGroupInit conf gifo (uncomment line) ≠ .error .outside := by
  unfold gifoGroupInit
  split
  · nofun
  · apply bind_inside (checked_inside _)
    intro uiGrID _
    split
    · nofun
    · apply bind_inside
      · apply @fold_inside _ _ (groupChan conf) (fun tokens state =>
          ∃ group, Pushed gifo tokens state group) group_chans_keep
          (groupTokens (uncomment line)) _ _ [] gifo rfl ⟨_, pushed_nil gifo⟩
        intro before token rest state whole pushed
        obtain ⟨group, pushed⟩ := pushed
        obtain rfl := pushed.after
        have own : (gifo.setGroup gifo.uiGrCnt group).stGROUP gifo.uiGrCnt = group :=
          Function.update_self ..
        have length : group.uiChCnt = before.length := by
          have none : (gifo.stGROUP gifo.uiGrCnt).channels = [] := by
            rw [Group.channels, clear]
            rfl
          rw [← channels_length, pushed.channels, none, List.nil_append, List.length_map]
        have shorter : before.length < (declaredChans line).length := by
          rw [declaredChans, List.length_map, ← whole, List.length_append, List.length_cons]
          omega
        apply @group_chan_inside _ (gifo.setGroup gifo.uiGrCnt group) token few
        · intro index earlier
          have before : index < gifo.uiGrCnt := earlier
          show (Function.update gifo.stGROUP gifo.uiGrCnt group index).uiChCnt ≤ _
          rw [Function.update_of_ne (Nat.ne_of_lt before)]
          exact others index before
        · show ((gifo.setGroup gifo.uiGrCnt group).stGROUP gifo.uiGrCnt).uiChCnt < _
          rw [own, length]
          exact Nat.lt_of_lt_of_le shorter fits.1
        · have listed : number token ∈ declaredChans line := by
            rw [declaredChans, ← whole, List.map_append, List.map_cons]
            exact List.mem_append_right _ List.mem_cons_self
          exact Nat.lt_of_lt_of_le (fits.2 _ listed) known
      · intro filled turns
        obtain ⟨group, pushed⟩ := @fold_reaches _ _ (groupChan conf)
          (fun tokens state => ∃ group, Pushed gifo tokens state group) group_chans_keep _ [] gifo _
          ⟨_, pushed_nil gifo⟩ turns
        obtain rfl := pushed.after
        have count : (gifo.setGroup gifo.uiGrCnt group).uiGrCnt = gifo.uiGrCnt := rfl
        rw [count, if_neg (Nat.not_le.mpr few)]
        dsimp only
        split
        · nofun
        · nofun

end GroupLines

section Matrices

variable {matrix : Nat → Nat} {entries : List (Nat × Nat)} {line : List Char}

/-- The entries that the lines declare, each in a place of its own. -/
structure Filled (matrix : Nat → Nat) (entries : List (Nat × Nat)) : Prop where
  apart : (entries.map Prod.fst).Nodup
  entry : ∀ entry ∈ entries, matrix entry.1 = entry.2 ∧ entry.2 ≠ INVALID_ID
  free : ∀ index, index ∉ entries.map Prod.fst → matrix index = INVALID_ID

theorem filled_nil : Filled (fun _ => INVALID_ID) [] := ⟨List.nodup_nil, nofun, fun _ _ => rfl⟩

theorem filled_snoc (filled : Filled matrix entries) {index id : Nat}
    (unused : matrix index = INVALID_ID) (valid : id ≠ INVALID_ID) :
    Filled (Function.update matrix index id) (entries ++ [(index, id)]) := by
  have fresh : index ∉ entries.map Prod.fst := by
    intro used
    obtain ⟨entry, member, rfl⟩ := List.mem_map.mp used
    obtain ⟨same, stored⟩ := filled.entry entry member
    exact stored (same.symm.trans unused)
  refine ⟨?_, ?_, ?_⟩
  · rw [List.map_append, List.map_singleton]
    exact List.nodup_append.mpr ⟨filled.apart, List.nodup_singleton _, by
      rintro first member second last rfl
      rw [List.mem_singleton.mp last] at member
      exact fresh member⟩
  · intro entry member
    rcases List.mem_append.mp member with old | new
    · have other : entry.1 ≠ index := fun same => fresh (same ▸ List.mem_map_of_mem old)
      rw [Function.update_of_ne other]
      exact filled.entry entry old
    · rw [List.mem_singleton.mp new]
      exact ⟨Function.update_self .., valid⟩
  · intro other outside
    rw [List.map_append, List.mem_append, not_or] at outside
    have away : other ≠ index := fun same => outside.2 (same ▸ List.mem_singleton_self _)
    rw [Function.update_of_ne away]
    exact filled.free other outside.1

theorem filled_small (filled : Filled matrix entries) {count : Nat}
    (small : ∀ entry ∈ entries, entry.2 < count) {index : Nat} (used : matrix index ≠ INVALID_ID) :
    matrix index < count := by
  have declared : index ∈ entries.map Prod.fst := by
    by_contra outside
    exact used (filled.free index outside)
  obtain ⟨entry, member, rfl⟩ := List.mem_map.mp declared
  rw [(filled.entry entry member).1]
  exact small entry member

/-- The number of a token of a line of a matrix. -/
def numberAt (line : List Char) (place : Nat) : Nat :=
  number ((upToComment (strtok '/' (uncomment line))).getD place [])

/-- What a line of the write matrix declares: the writer, the reader and the channel. -/
def declaredWrite (line : List Char) : Nat × Nat × Nat :=
  (numberAt line 0, numberAt line 1, numberAt line 2)

/-- What a line of the read matrix declares: the reader and the group. -/
def declaredRead (line : List Char) : Nat × Nat := (numberAt line 0, numberAt line 1)

def writeEntry (line : List Char) : Nat × Nat :=
  (matrixIndex (declaredWrite line).1 (declaredWrite line).2.1, (declaredWrite line).2.2)

theorem number_at {tokens : List (List Char)} {count place : Nat}
    (taken : (upToComment (strtok '/' (uncomment line))).take count = tokens)
    (before : place < count) : numberAt line place = number (tokens.getD place []) := by
  subst taken
  rw [numberAt, List.getD_eq_getElem?_getD, List.getD_eq_getElem?_getD,
    List.getElem?_take_of_lt before]

theorem matrix_chan_ok {pTok : List Char} {uiChID : Nat} (ran : matrixChan conf pTok = .ok uiChID) :
    uiChID = number pTok ∧ number pTok < MAX_CHAN_CNT := by
  obtain ⟨value, read, ran⟩ := bind_ok ran
  obtain rfl := check_number read
  obtain ⟨stored, inArray, ran⟩ := bind_ok ran
  split at ran
  · cases ran
  · cases ran
    exact ⟨rfl, chan_id_small inArray⟩

theorem write_matrix_ok (ran : gifoWriteMatrix conf gifo (uncomment line) = .ok gifo') :
    (writeEntry line).1 < MATRIX_SIZE ∧ (writeEntry line).2 < MAX_CHAN_CNT ∧
      gifo.uiMatrixChID (writeEntry line).1 = INVALID_ID ∧
      gifo' = { gifo with
        uiMatrixChID := Function.update gifo.uiMatrixChID (writeEntry line).1 (writeEntry line).2 } := by
  unfold gifoWriteMatrix at ran
  split at ran
  next write read chan tokens =>
    have first := number_at tokens (by decide : 0 < 3)
    have second := number_at tokens (by decide : 1 < 3)
    have third := number_at tokens (by decide : 2 < 3)
    obtain ⟨uiWSeq, readWrite, ran⟩ := bind_ok ran
    obtain ⟨uiRSeq, readRead, ran⟩ := bind_ok ran
    obtain ⟨uiChID, readChan, ran⟩ := bind_ok ran
    obtain rfl := (check_number readWrite).trans first.symm
    obtain rfl := (check_number readRead).trans second.symm
    obtain ⟨own, small⟩ := matrix_chan_ok readChan
    rw [← show numberAt line 2 = number chan from third] at own small
    subst own
    dsimp only at ran
    split at ran
    · cases ran
    next within =>
      split at ran
      · cases ran
      next inArray =>
        split at ran
        · cases ran
        next unused =>
          cases ran
          refine ⟨?_, small, not_not.mp unused, rfl⟩
          exact Nat.lt_of_le_of_ne (Nat.le_of_not_lt within) inArray
  next =>
    obtain ⟨values, -, ran⟩ := bind_ok ran
    cases ran

theorem map_inside {α β : Type} {test : α → Except Failure β} (indices : List α)
    (inside : ∀ index ∈ indices, test index ≠ .error .outside) :
    indices.mapM test ≠ .error .outside := by
  induction indices with
  | nil => nofun
  | cons index rest ih =>
      rw [List.mapM_cons]
      apply bind_inside (inside index List.mem_cons_self)
      intro value _
      apply bind_inside (ih fun other member => inside other (List.mem_cons_of_mem _ member))
      intro values _
      nofun

theorem write_matrix_inside (place : (writeEntry line).1 ≠ MATRIX_SIZE)
    (small : (writeEntry line).2 < MAX_CHAN_CNT) :
    gifoWriteMatrix conf gifo (uncomment line) ≠ .error .outside := by
  unfold gifoWriteMatrix
  split
  next write read chan tokens =>
    have first := number_at tokens (by decide : 0 < 3)
    have second := number_at tokens (by decide : 1 < 3)
    have third := number_at tokens (by decide : 2 < 3)
    apply bind_inside (checked_inside _)
    intro uiWSeq readWrite
    apply bind_inside (checked_inside _)
    intro uiRSeq readRead
    obtain rfl := (check_number readWrite).trans first.symm
    obtain rfl := (check_number readRead).trans second.symm
    have known : number chan < MAX_CHAN_CNT := by
      rw [← show numberAt line 2 = number chan from third]
      exact small
    apply bind_inside
    · apply bind_inside (checked_inside _)
      intro value read
      obtain rfl := check_number read
      apply bind_inside (chan_id_inside known)
      intro stored _
      split
      · nofun
      · nofun
    · intro uiChID _
      have elsewhere : matrixIndex (numberAt line 0) (numberAt line 1) ≠ MATRIX_SIZE := place
      dsimp only
      rw [if_neg elsewhere]
      split
      · nofun
      · split
        · nofun
        · nofun
  next =>
    apply bind_inside (map_inside _ fun _ _ => checked_inside _)
    intro values _
    nofun

theorem read_matrix_ok (ran : gifoReadMatrix gifo (uncomment line) = .ok gifo') :
    (declaredRead line).1 < MAX_SEQ_PROC_NUM ∧ (declaredRead line).2 < MAX_GROUP_CNT ∧
      gifo.uiMatrixGrID (declaredRead line).1 = INVALID_ID ∧
      gifo' = { gifo with
        uiMatrixGrID :=
          Function.update gifo.uiMatrixGrID (declaredRead line).1 (declaredRead line).2 } := by
  unfold gifoReadMatrix at ran
  split at ran
  next read group tokens =>
    have first := number_at tokens (by decide : 0 < 2)
    have second := number_at tokens (by decide : 1 < 2)
    obtain ⟨uiRSeq, reader, ran⟩ := bind_ok ran
    obtain ⟨uiGrID, grouped, ran⟩ := bind_ok ran
    obtain ⟨value, readReader, reader⟩ := bind_ok reader
    obtain ⟨value', readGroup, grouped⟩ := bind_ok grouped
    obtain rfl := (check_number readReader).trans first.symm
    obtain rfl := (check_number readGroup).trans second.symm
    split at reader
    · cases reader
    next inArray =>
      split at reader
      · cases reader
      next unused =>
        cases reader
        split at grouped
        · cases grouped
        next few =>
          split at grouped
          · cases grouped
          · cases grouped
            split at ran
            · cases ran
            · cases ran
              exact ⟨Nat.lt_of_not_le inArray, Nat.lt_of_not_le few, not_not.mp unused, rfl⟩
  next =>
    obtain ⟨value, -, ran⟩ := bind_ok ran
    cases ran
  next => cases ran

theorem reader_inside {pTok : List Char} (small : number pTok < MAX_SEQ_PROC_NUM) :
    matrixReader gifo pTok ≠ .error .outside := by
  apply bind_inside (checked_inside _)
  intro value read
  obtain rfl := check_number read
  rw [if_neg (Nat.not_le.mpr small)]
  split
  · nofun
  · nofun

theorem read_matrix_inside (small : (declaredRead line).1 < MAX_SEQ_PROC_NUM)
    (few : (declaredRead line).2 < MAX_GROUP_CNT) :
    gifoReadMatrix gifo (uncomment line) ≠ .error .outside := by
  unfold gifoReadMatrix
  split
  next read group tokens =>
    have first : numberAt line 0 = number read := number_at tokens (by decide : 0 < 2)
    have second : numberAt line 1 = number group := number_at tokens (by decide : 1 < 2)
    have reader : number read < MAX_SEQ_PROC_NUM := first ▸ small
    have known : number group < MAX_GROUP_CNT := second ▸ few
    apply bind_inside (reader_inside reader)
    intro uiRSeq _
    apply bind_inside
    · apply bind_inside (checked_inside _)
      intro value read
      obtain rfl := check_number read
      rw [if_neg (Nat.not_le.mpr known)]
      split
      · nofun
      · nofun
    · intro uiGrID _
      split
      · nofun
      · nofun
  next read tokens =>
    have first : numberAt line 0 = number read := number_at tokens (by decide : 0 < 2)
    have reader : number read < MAX_SEQ_PROC_NUM := first ▸ small
    apply bind_inside (reader_inside reader)
    intro uiRSeq _
    nofun
  next => nofun

end Matrices

section Parts

variable {lines : List (List Char)}

/-- The lines before the mark that ends a part of the file. -/
def partLines (part : Nat) (lines : List (List Char)) : List (List Char) :=
  lines.takeWhile fun line => uncomment line ≠ endMark part

/-- The mark and the lines behind it. -/
def fromMark (part : Nat) (lines : List (List Char)) : List (List Char) :=
  lines.dropWhile fun line => uncomment line ≠ endMark part

def loadPart (conf : StCifoConf) (part : Nat) (gifo : StGifo) (lines : List (List Char)) :
    Except Failure StGifo :=
  (partLines part lines).foldlM (fun gifo line => gifoPart conf part gifo (uncomment line)) gifo

theorem lines_part {part : Nat} (open' : part < 3) :
    ∀ gifo, lines.foldlM (gifoLine conf) (part, gifo) = (do
      let gifo ← loadPart conf part gifo lines
      match fromMark part lines with
      | [] => .ok (part, gifo)
      | _ :: rest => rest.foldlM (gifoLine conf) (part + 1, gifo)) := by
  induction lines with
  | nil => exact fun gifo => rfl
  | cons line rest ih =>
      intro gifo
      have unfinished : ¬3 ≤ part := Nat.not_le.mpr open'
      by_cases mark : uncomment line = endMark part
      · have before : partLines part (line :: rest) = [] := by
          rw [partLines, List.takeWhile_cons_of_neg (by simpa using mark)]
        have behind : fromMark part (line :: rest) = line :: rest := by
          rw [fromMark, List.dropWhile_cons_of_neg (by simpa using mark)]
        rw [List.foldlM_cons, gifoLine, if_neg unfinished, if_pos mark, loadPart, before, behind]
        rfl
      · have before : partLines part (line :: rest) = line :: partLines part rest := by
          rw [partLines, List.takeWhile_cons_of_pos (by simpa using mark)]
          rfl
        have behind : fromMark part (line :: rest) = fromMark part rest := by
          rw [fromMark, List.dropWhile_cons_of_pos (by simpa using mark)]
          rfl
        rw [List.foldlM_cons, gifoLine, if_neg unfinished, if_neg mark, loadPart, before, behind,
          List.foldlM_cons]
        cases gifoPart conf part gifo (uncomment line) with
        | error failure => rfl
        | ok gifo => exact ih gifo

theorem lines_done (conf : StCifoConf) (lines : List (List Char)) (gifo : StGifo) :
    lines.foldlM (gifoLine conf) (3, gifo) = .ok (3, gifo) := by
  induction lines with
  | nil => rfl
  | cons line rest ih =>
      rw [List.foldlM_cons]
      exact ih

def groupLines (text : List Char) : List (List Char) := partLines 0 (confLines text)

/-- The lines behind the groups. -/
def behindGroups (text : List Char) : List (List Char) := (fromMark 0 (confLines text)).tail

def writeLines (text : List Char) : List (List Char) := partLines 1 (behindGroups text)

def behindWrites (text : List Char) : List (List Char) := (fromMark 1 (behindGroups text)).tail

def readLines (text : List Char) : List (List Char) := partLines 2 (behindWrites text)

/-- The rest of `gifo_conf_init`, from a line on. -/
def loadFrom (conf : StCifoConf) (part : Nat) (gifo : StGifo) (lines : List (List Char)) :
    Except Failure StGifo := do
  let (dCurSet, gifo) ← lines.foldlM (gifoLine conf) (part, gifo)
  if dCurSet ≠ 3 then .error (.rejected DEF_ERR_FORM) else .ok gifo

theorem load_from_done (conf : StCifoConf) (gifo : StGifo) (lines : List (List Char)) :
    loadFrom conf 3 gifo lines = .ok gifo := by
  rw [loadFrom, lines_done]
  rfl

theorem load_from_part {part : Nat} (open' : part < 3) (gifo : StGifo) :
    loadFrom conf part gifo lines = (do
      let gifo ← loadPart conf part gifo lines
      if fromMark part lines = [] then .error (.rejected DEF_ERR_FORM)
      else loadFrom conf (part + 1) gifo (fromMark part lines).tail) := by
  rw [loadFrom, lines_part open']
  cases loadPart conf part gifo lines with
  | error failure => rfl
  | ok gifo =>
      cases fromMark part lines with
      | nil => exact if_pos (Nat.ne_of_lt open')
      | cons mark rest => rfl

theorem loaded_part {part : Nat} (open' : part < 3) {final : StGifo}
    (loaded : loadFrom conf part gifo lines = .ok final) :
    ∃ gifo', loadPart conf part gifo lines = .ok gifo' ∧
      loadFrom conf (part + 1) gifo' (fromMark part lines).tail = .ok final := by
  rw [load_from_part open'] at loaded
  obtain ⟨gifo', first, later⟩ := bind_ok loaded
  split at later
  · cases later
  · exact ⟨gifo', first, later⟩

/-- A part of a text that is not rejected is not rejected, and the mark behind it is there. -/
theorem accepted_part {part : Nat} (open' : part < 3)
    (accepted : Accepted (loadFrom conf part gifo lines)) :
    Accepted (loadPart conf part gifo lines) ∧
      ∀ gifo', loadPart conf part gifo lines = .ok gifo' →
        loadFrom conf part gifo lines =
            loadFrom conf (part + 1) gifo' (fromMark part lines).tail ∧
          Accepted (loadFrom conf (part + 1) gifo' (fromMark part lines).tail) := by
  have whole := @load_from_part conf lines part open' gifo
  rw [whole] at accepted
  obtain ⟨first, later⟩ := accepted_bind accepted
  refine ⟨first, ?_⟩
  intro gifo' loaded
  have behind := later gifo' loaded
  rw [whole, loaded]
  by_cases missing : fromMark part lines = []
  · rw [if_pos missing] at behind
    exact absurd rfl (behind _)
  · rw [if_neg missing] at behind
    exact ⟨if_neg missing, behind⟩

end Parts

section Loaded

variable {stGROUP : Nat → Group} {lines : List (List Char)}

theorem groups_loaded (ran : loadPart conf 0 (gifoStart stGROUP) lines = .ok gifo) :
    Grouped stGROUP (partLines 0 lines) gifo :=
  fold_reaches grouped_line (partLines 0 lines) (grouped_start stGROUP) ran

theorem groups_inside {channels : Nat} (known : channels ≤ MAX_CHAN_CNT)
    (few : (partLines 0 lines).length ≤ MAX_GROUP_CNT)
    (clear : ∀ index < (partLines 0 lines).length, (stGROUP index).uiChCnt = 0)
    (fits : ∀ line ∈ partLines 0 lines, ListFits channels line) :
    loadPart conf 0 (gifoStart stGROUP) lines ≠ .error .outside := by
  apply @fold_inside _ _ _ (Grouped stGROUP) grouped_line (partLines 0 lines) _ _ [] _ rfl
    (grouped_start stGROUP)
  intro before line rest state whole grouped
  have length : before.length < (partLines 0 lines).length := by
    rw [← whole, List.length_append, List.length_cons]
    omega
  have member : line ∈ partLines 0 lines := by
    rw [← whole]
    exact List.mem_append_right _ List.mem_cons_self
  apply group_init_inside _ _ _ known (fits line member)
  · rw [grouped.count]
    exact Nat.lt_of_lt_of_le length few
  · intro index earlier
    rw [grouped.count] at earlier
    have found := List.getElem?_eq_getElem earlier
    have inside : before[index] ∈ partLines 0 lines := by
      rw [← whole]
      exact List.mem_append_left _ (List.getElem_mem earlier)
    have empty : (stGROUP index).channels = [] := by
      rw [Group.channels, clear index (Nat.lt_trans earlier length)]
      rfl
    rw [← channels_length, grouped.channels index _ found, empty, List.nil_append]
    exact (fits _ inside).1
  · rw [grouped.rest _ (Nat.le_of_eq grouped.count.symm), grouped.count]
    exact clear before.length length

/-- The lines of the write matrix, as they are loaded. -/
structure Written (start : StGifo) (lines : List (List Char)) (gifo : StGifo) : Prop where
  after : gifo = { start with uiMatrixChID := gifo.uiMatrixChID }
  filled : Filled gifo.uiMatrixChID (lines.map writeEntry)
  inside : ∀ line ∈ lines, (writeEntry line).1 < MATRIX_SIZE ∧ (writeEntry line).2 < MAX_CHAN_CNT

theorem written_start (clear : gifo.uiMatrixChID = fun _ => INVALID_ID) : Written gifo [] gifo := by
  refine ⟨rfl, ?_, nofun⟩
  rw [clear]
  exact filled_nil

theorem written_line (before : List (List Char)) (line : List Char) (state after : StGifo)
    (written : Written gifo before state)
    (ran : gifoWriteMatrix conf state (uncomment line) = .ok after) :
    Written gifo (before ++ [line]) after := by
  obtain ⟨place, small, unused, rfl⟩ := write_matrix_ok ran
  have valid : (writeEntry line).2 ≠ INVALID_ID := by
    intro same
    rw [same] at small
    exact absurd small (by decide)
  refine ⟨?_, ?_, ?_⟩
  · rw [written.after]
  · rw [List.map_append, List.map_singleton]
    exact filled_snoc written.filled unused valid
  · intro other member
    rcases List.mem_append.mp member with old | new
    · exact written.inside other old
    · rw [List.mem_singleton.mp new]
      exact ⟨place, small⟩

theorem writes_loaded (clear : gifo.uiMatrixChID = fun _ => INVALID_ID)
    (ran : loadPart conf 1 gifo lines = .ok gifo') : Written gifo (partLines 1 lines) gifo' :=
  fold_reaches written_line (partLines 1 lines) (written_start clear) ran

theorem writes_inside {channels : Nat} (known : channels ≤ MAX_CHAN_CNT)
    (clear : gifo.uiMatrixChID = fun _ => INVALID_ID)
    (fits : ∀ line ∈ partLines 1 lines,
      (writeEntry line).1 ≠ MATRIX_SIZE ∧ (writeEntry line).2 < channels) :
    loadPart conf 1 gifo lines ≠ .error .outside := by
  apply @fold_inside _ _ _ (Written gifo) written_line (partLines 1 lines) _ _ [] _ rfl
    (written_start clear)
  intro before line rest state whole _
  have member : line ∈ partLines 1 lines := by
    rw [← whole]
    exact List.mem_append_right _ List.mem_cons_self
  obtain ⟨place, small⟩ := fits line member
  exact write_matrix_inside place (Nat.lt_of_lt_of_le small known)

/-- The lines of the read matrix, as they are loaded. -/
structure Read (start : StGifo) (lines : List (List Char)) (gifo : StGifo) : Prop where
  after : gifo = { start with uiMatrixGrID := gifo.uiMatrixGrID }
  filled : Filled gifo.uiMatrixGrID (lines.map declaredRead)
  inside : ∀ line ∈ lines, (declaredRead line).1 < MAX_SEQ_PROC_NUM

theorem read_start (clear : gifo.uiMatrixGrID = fun _ => INVALID_ID) : Read gifo [] gifo := by
  refine ⟨rfl, ?_, nofun⟩
  rw [clear]
  exact filled_nil

theorem read_line (before : List (List Char)) (line : List Char) (state after : StGifo)
    (read : Read gifo before state) (ran : gifoReadMatrix state (uncomment line) = .ok after) :
    Read gifo (before ++ [line]) after := by
  obtain ⟨place, small, unused, rfl⟩ := read_matrix_ok ran
  have valid : (declaredRead line).2 ≠ INVALID_ID := by
    intro same
    rw [same] at small
    exact absurd small (by decide)
  refine ⟨?_, ?_, ?_⟩
  · rw [read.after]
  · rw [List.map_append, List.map_singleton]
    exact filled_snoc read.filled unused valid
  · intro other member
    rcases List.mem_append.mp member with old | new
    · exact read.inside other old
    · rw [List.mem_singleton.mp new]
      exact place

theorem reads_loaded (clear : gifo.uiMatrixGrID = fun _ => INVALID_ID)
    (ran : loadPart conf 2 gifo lines = .ok gifo') : Read gifo (partLines 2 lines) gifo' :=
  fold_reaches read_line (partLines 2 lines) (read_start clear) ran

theorem reads_inside {groups : Nat} (known : groups ≤ MAX_GROUP_CNT)
    (clear : gifo.uiMatrixGrID = fun _ => INVALID_ID)
    (fits : ∀ line ∈ partLines 2 lines,
      (declaredRead line).1 < MAX_SEQ_PROC_NUM ∧ (declaredRead line).2 < groups) :
    loadPart conf 2 gifo lines ≠ .error .outside := by
  apply @fold_inside _ _ _ (Read gifo) read_line (partLines 2 lines) _ _ [] _ rfl (read_start clear)
  intro before line rest state whole _
  have member : line ∈ partLines 2 lines := by
    rw [← whole]
    exact List.mem_append_right _ List.mem_cons_self
  obtain ⟨reader, small⟩ := fits line member
  exact read_matrix_inside reader (Nat.lt_of_lt_of_le small known)

end Loaded

section Channels

variable {locals : ChanConf} {keys keys' : KeyConf} {chans chans' : List ChanConf} {text : List Char}

/-- The lines of the channel table. -/
def channelLines (text : List Char) : List (List Char) := (confLines text).drop 2

def WordsFit (line : List Char) : Prop := ∀ word ∈ scanWords line, word.length < 64

theorem key_line_ok {line : List Char} (ran : cifoKeyLine keys line = .ok keys') :
    WordsFit line := by
  unfold cifoKeyLine at ran
  split at ran
  · cases ran
  next fits =>
    intro word member
    by_contra long
    exact fits ⟨word, member, Nat.le_of_not_lt long⟩

theorem key_line_inside {line : List Char} (fits : WordsFit line) :
    cifoKeyLine keys line ≠ .error .outside := by
  have short : ¬∃ word ∈ scanWords line, 64 ≤ word.length := by
    rintro ⟨word, member, long⟩
    exact Nat.not_le.mpr (fits word member) long
  unfold cifoKeyLine
  rw [if_neg short]
  split
  · split
    · apply bind_inside (checked_inside _)
      intro uiShmKey _
      nofun
    · split
      · apply bind_inside (checked_inside _)
        intro uiHeadRoomSize _
        nofun
      · nofun
  · nofun

theorem chan_line_ok {line : List Char} (ran : cifoChanLine locals chans line = .ok chans') :
    chans.length < MAX_CHAN_CNT ∧ chans'.length = chans.length + 1 := by
  obtain ⟨after, stored, ran⟩ := bind_ok ran
  split at ran
  next room =>
    cases ran
    refine ⟨room, ?_⟩
    cases result : cifoChanInit locals chans ((strtok '/' line).map trim) with
    | error dRet =>
        rw [result] at stored
        cases stored
    | ok chans'' =>
        rw [result] at stored
        cases stored
        unfold cifoChanInit at result
        split at result
        · cases result
        · obtain ⟨⟨dTokSize, chan⟩, -, result⟩ := bind_ok result
          dsimp only at result
          split at result
          · cases result
          · cases result
            rw [List.length_append, List.length_singleton]
  next => cases ran

theorem chan_line_inside {line : List Char} (room : chans.length < MAX_CHAN_CNT) :
    cifoChanLine locals chans line ≠ .error .outside := by
  apply bind_inside (checked_inside _)
  intro after _
  rw [if_pos room]
  nofun

/-- Each line of the table is a channel. -/
def Tabled (lines : List (List Char)) (chans : List ChanConf) : Prop :=
  chans.length = lines.length ∧ lines.length ≤ MAX_CHAN_CNT

theorem tabled_line (before : List (List Char)) (line : List Char) (chans chans' : List ChanConf)
    (tabled : Tabled before chans) (ran : cifoChanLine locals chans line = .ok chans') :
    Tabled (before ++ [line]) chans' := by
  obtain ⟨room, length⟩ := chan_line_ok ran
  rw [Tabled, List.length_append, List.length_singleton, length, ← tabled.1]
  exact ⟨rfl, room⟩

theorem cifo_conf_ok (ran : cifoConfInit keys locals text = .ok (keys', chans)) :
    (∀ line ∈ (confLines text).take 2, WordsFit line) ∧ Tabled (channelLines text) chans := by
  obtain ⟨keys₁, first, ran⟩ := bind_ok ran
  obtain ⟨chans₁, table, ran⟩ := bind_ok ran
  cases ran
  constructor
  · exact @fold_reaches _ _ cifoKeyLine (fun lines _ => ∀ line ∈ lines, WordsFit line) (by
      intro before line state after fits ran other member
      rcases List.mem_append.mp member with old | new
      · exact fits other old
      · rw [List.mem_singleton.mp new]
        exact key_line_ok ran) _ [] keys keys' (by nofun) first
  · exact @fold_reaches _ _ _ Tabled tabled_line (channelLines text) [] [] chans
      ⟨rfl, Nat.zero_le _⟩ table

theorem cifo_conf_inside (words : ∀ line ∈ (confLines text).take 2, WordsFit line)
    (few : (channelLines text).length ≤ MAX_CHAN_CNT) :
    cifoConfInit keys locals text ≠ .error .outside := by
  apply bind_inside
  · apply @fold_inside _ _ cifoKeyLine (fun _ _ => True) (fun _ _ _ _ _ _ => trivial)
      ((confLines text).take 2) _ _ [] keys rfl trivial
    intro before line rest state whole _
    apply key_line_inside
    apply words
    rw [← whole]
    exact List.mem_append_right _ List.mem_cons_self
  · intro keys₁ _
    apply bind_inside
    · apply @fold_inside _ _ _ Tabled tabled_line (channelLines text) _ _ [] [] rfl
        ⟨rfl, Nat.zero_le _⟩
      intro before line rest state whole tabled
      apply chan_line_inside
      rw [tabled.1]
      apply Nat.lt_of_lt_of_le _ few
      rw [← whole, List.length_append, List.length_cons]
      omega
    · intro chans _
      nofun

end Channels

section Routing

/-- What was loaded is what the text declares: a write goes to the channel of its line, the declared
pairs have places of their own, the groups list what their lines list, and every id
that is stored is that of a channel or a group. -/
structure Routed (chans : List ChanConf) (gifo : StGifo) (text : List Char) : Prop where
  writes : ∀ line ∈ writeLines text, ∀ shm cifo offset,
    gifoWrite shm cifo gifo (declaredWrite line).1 (declaredWrite line).2.1 offset =
      cifoWrite shm cifo (declaredWrite line).2.2 offset
  apart : ((writeLines text).map fun line => (writeEntry line).1).Nodup
  count : gifo.uiGrCnt = (groupLines text).length
  lists : ∀ index line, (groupLines text)[index]? = some line →
    (gifo.stGROUP index).channels = declaredChans line
  listed : ∀ index < gifo.uiGrCnt, ∀ uiChID ∈ (gifo.stGROUP index).channels, uiChID < chans.length
  written : ∀ index < MATRIX_SIZE, gifo.uiMatrixChID index ≠ INVALID_ID →
    gifo.uiMatrixChID index < chans.length
  read : ∀ index < MAX_SEQ_PROC_NUM, gifo.uiMatrixGrID index ≠ INVALID_ID →
    gifo.uiMatrixGrID index < gifo.uiGrCnt

/-- The texts fit the arrays and name what they declare, and the counts of the groups were zero. -/
structure TextsFit (raw : Raw) (cifoText gifoText : List Char) : Prop where
  words : ∀ line ∈ (confLines cifoText).take 2, WordsFit line
  channels : (channelLines cifoText).length ≤ MAX_CHAN_CNT
  groups : (groupLines gifoText).length ≤ MAX_GROUP_CNT
  clear : ∀ index < (groupLines gifoText).length, (raw.stGROUP index).uiChCnt = 0
  lists : ∀ line ∈ groupLines gifoText, ListFits (channelLines cifoText).length line
  writes : ∀ line ∈ writeLines gifoText, (writeEntry line).1 ≠ MATRIX_SIZE ∧
    (writeEntry line).2 < (channelLines cifoText).length
  reads : ∀ line ∈ readLines gifoText, (declaredRead line).1 < MAX_SEQ_PROC_NUM ∧
    (declaredRead line).2 < (groupLines gifoText).length

variable {raw : Raw} {cifoText gifoText : List Char} {chans : List ChanConf} {gifo : StGifo}

/-- The parts of a load, in their order. -/
structure Parts (raw : Raw) (cifoText gifoText : List Char) (chans : List ChanConf)
    (gifo : StGifo) : Prop where
  words : ∀ line ∈ (confLines cifoText).take 2, WordsFit line
  tabled : Tabled (channelLines cifoText) chans
  parts : ∃ gifo₁ gifo₂, Grouped raw.stGROUP (groupLines gifoText) gifo₁ ∧
    Written gifo₁ (writeLines gifoText) gifo₂ ∧ Read gifo₂ (readLines gifoText) gifo

/-- What was loaded was loaded part by part. -/
theorem load_parts (loaded : gifoLoad raw cifoText gifoText = .ok (chans, gifo)) :
    Parts raw cifoText gifoText chans gifo := by
  obtain ⟨⟨keys, chans'⟩, table, loaded⟩ := bind_ok loaded
  obtain ⟨gifo', conf, loaded⟩ := bind_ok loaded
  cases loaded
  obtain ⟨words, tabled⟩ := cifo_conf_ok table
  have run : loadFrom ⟨chans, raw.uiChID⟩ 0 (gifoStart raw.stGROUP) (confLines gifoText) =
      .ok gifo := conf
  obtain ⟨gifo₁, groups, run₁⟩ := loaded_part (by decide) run
  obtain ⟨gifo₂, writes, run₂⟩ := loaded_part (by decide) run₁
  obtain ⟨gifo₃, reads, run₃⟩ := loaded_part (by decide) run₂
  rw [load_from_done] at run₃
  cases run₃
  have grouped := groups_loaded groups
  have written := writes_loaded grouped.matrixCh writes
  have clear : gifo₂.uiMatrixGrID = fun _ => INVALID_ID := by
    rw [written.after]
    exact grouped.matrixGr
  exact ⟨words, tabled, gifo₁, gifo₂, grouped, written, reads_loaded clear reads⟩

/-- A load of texts that fit is not cut short but by an error. -/
theorem load_fits (fits : TextsFit raw cifoText gifoText)
    (accepted : Accepted (gifoLoad raw cifoText gifoText)) :
    ∃ chans gifo, gifoLoad raw cifoText gifoText = .ok (chans, gifo) := by
  obtain ⟨first, later⟩ := accepted_bind accepted
  obtain ⟨⟨keys, chans⟩, table⟩ := accepted_ok first (cifo_conf_inside fits.words fits.channels)
  obtain ⟨-, tabled⟩ := cifo_conf_ok table
  obtain ⟨parts, -⟩ := accepted_bind (later _ table)
  have parts' : Accepted (loadFrom ⟨chans, raw.uiChID⟩ 0 (gifoStart raw.stGROUP)
    (confLines gifoText)) := parts
  obtain ⟨groups, later₁⟩ := accepted_part (by decide) parts'
  obtain ⟨gifo₁, loaded₁⟩ := accepted_ok groups
    (groups_inside fits.channels fits.groups fits.clear fits.lists)
  have grouped := groups_loaded loaded₁
  obtain ⟨same₁, parts₁⟩ := later₁ gifo₁ loaded₁
  obtain ⟨writes, later₂⟩ := accepted_part (by decide) parts₁
  obtain ⟨gifo₂, loaded₂⟩ := accepted_ok writes
    (writes_inside fits.channels grouped.matrixCh fits.writes)
  have written := writes_loaded grouped.matrixCh loaded₂
  have clear : gifo₂.uiMatrixGrID = fun _ => INVALID_ID := by
    rw [written.after]
    exact grouped.matrixGr
  obtain ⟨same₂, parts₂⟩ := later₂ gifo₂ loaded₂
  obtain ⟨reads, later₃⟩ := accepted_part (by decide) parts₂
  obtain ⟨gifo₃, loaded₃⟩ := accepted_ok reads (reads_inside fits.groups clear fits.reads)
  obtain ⟨same₃, -⟩ := later₃ gifo₃ loaded₃
  refine ⟨chans, gifo₃, ?_⟩
  have conf : gifoConfInit ⟨chans, raw.uiChID⟩ raw.stGROUP gifoText = .ok gifo₃ :=
    same₁.trans (same₂.trans (same₃.trans (load_from_done ..)))
  rw [gifoLoad, table]
  show (gifoConfInit ⟨chans, raw.uiChID⟩ raw.stGROUP gifoText >>= fun gifo => _) = _
  rw [conf]
  rfl

theorem parts_routed (parts : Parts raw cifoText gifoText chans gifo)
    (fits : TextsFit raw cifoText gifoText) : Routed chans gifo gifoText := by
  obtain ⟨-, tabled, gifo₁, gifo₂, grouped, written, read⟩ := parts
  have matrixCh : gifo.uiMatrixChID = gifo₂.uiMatrixChID := by rw [read.after]
  have groups : gifo.stGROUP = gifo₁.stGROUP := by rw [read.after, written.after]
  have count : gifo.uiGrCnt = (groupLines gifoText).length := by
    rw [read.after, written.after]
    exact grouped.count
  have lists : ∀ index line, (groupLines gifoText)[index]? = some line →
      (gifo.stGROUP index).channels = declaredChans line := by
    intro index line found
    have before : index < (groupLines gifoText).length := (List.getElem?_eq_some_iff.mp found).1
    have empty : (raw.stGROUP index).channels = [] := by
      rw [Group.channels, fits.clear index before]
      rfl
    rw [groups, grouped.channels index line found, empty, List.nil_append]
  refine ⟨?_, ?_, count, lists, ?_, ?_, ?_⟩
  · intro line member shm cifo offset
    have place := (written.inside line member).1
    have stored := (written.filled.entry _ (List.mem_map_of_mem member)).1
    rw [gifoWrite, matrixCh]
    show (if (writeEntry line).1 < MATRIX_SIZE then
      cifoWrite shm cifo (gifo₂.uiMatrixChID (writeEntry line).1) offset else none) = _
    rw [if_pos place, stored]
    rfl
  · have apart := written.filled.apart
    rwa [List.map_map] at apart
  · intro index before uiChID member
    rw [count] at before
    have found := List.getElem?_eq_getElem before
    rw [lists index _ found] at member
    rw [tabled.1]
    exact (fits.lists _ (List.getElem_mem before)).2 uiChID member
  · intro index _ used
    rw [matrixCh] at used ⊢
    apply filled_small written.filled _ used
    intro entry member
    obtain ⟨line, inside, rfl⟩ := List.mem_map.mp member
    rw [tabled.1]
    exact (fits.writes line inside).2
  · intro index _ used
    apply filled_small read.filled _ used
    intro entry member
    obtain ⟨line, inside, rfl⟩ := List.mem_map.mp member
    rw [count]
    exact (fits.reads line inside).2

theorem parts_fit (parts : Parts raw cifoText gifoText chans gifo)
    (routed : Routed chans gifo gifoText) : TextsFit raw cifoText gifoText := by
  obtain ⟨words, tabled, gifo₁, gifo₂, grouped, written, read⟩ := parts
  have matrixCh : gifo.uiMatrixChID = gifo₂.uiMatrixChID := by rw [read.after]
  have groups : gifo.stGROUP = gifo₁.stGROUP := by rw [read.after, written.after]
  have channels : ∀ index line, (groupLines gifoText)[index]? = some line →
      (raw.stGROUP index).channels = [] := by
    intro index line found
    have same := grouped.channels index line found
    rw [← groups, routed.lists index line found] at same
    exact List.self_eq_append_left.mp same
  refine ⟨words, tabled.2, grouped.few, ?_, ?_, ?_, ?_⟩
  · intro index before
    rw [← channels_length, channels index _ (List.getElem?_eq_getElem before)]
    rfl
  · intro line member
    obtain ⟨index, before, found⟩ := List.mem_iff_getElem?.mp member |>.imp fun index found =>
      (⟨(List.getElem?_eq_some_iff.mp found).1, found⟩ : _ ∧ _)
    constructor
    · by_cases empty : declaredChans line = []
      · rw [empty]
        exact Nat.zero_le _
      · have room := grouped.room index line found empty
        rw [← groups, ← channels_length, routed.lists index line found] at room
        exact room
    · intro uiChID listed
      rw [← tabled.1]
      apply routed.listed index (by rw [routed.count]; exact before)
      rw [routed.lists index line found]
      exact listed
  · intro line member
    obtain ⟨place, -⟩ := written.inside line member
    obtain ⟨stored, valid⟩ := written.filled.entry _ (List.mem_map_of_mem member)
    have bound := routed.written (writeEntry line).1 place
    rw [matrixCh, stored, tabled.1] at bound
    exact ⟨Nat.ne_of_lt place, bound valid⟩
  · intro line member
    have reader := read.inside line member
    obtain ⟨stored, valid⟩ := read.filled.entry _ (List.mem_map_of_mem member)
    have bound := routed.read (declaredRead line).1 reader
    rw [stored, routed.count] at bound
    exact ⟨reader, bound valid⟩

/-- Of two texts that are not rejected, the loaders make what they say if and only if the texts fit
and the counts of the groups were zero before. -/
theorem load_routed (raw : Raw) (cifoText gifoText : List Char)
    (accepted : Accepted (gifoLoad raw cifoText gifoText)) :
    (∃ chans gifo, gifoLoad raw cifoText gifoText = .ok (chans, gifo) ∧
      Routed chans gifo gifoText) ↔ TextsFit raw cifoText gifoText := by
  constructor
  · rintro ⟨chans, gifo, loaded, routed⟩
    exact parts_fit (load_parts loaded) routed
  · intro fits
    obtain ⟨chans, gifo, loaded⟩ := load_fits fits accepted
    exact ⟨chans, gifo, loaded, parts_routed (load_parts loaded) fits⟩

/-- Two channels, and a writer for each. -/
def twoChannels : List Char :=
  "uiShmKey = 1\nuiHeadRoomSize = 0\n0/10/8/1/1/0/1/0/2\n1/10/8/1/1/0/1/0/2\n".toList

/-- One group, of both channels. -/
def oneGroup : List Char :=
  "0/0,1\nEND_GROUP#\n0/0/0\n1/0/1\nEND_WRITE_MATRIX#\n0/0\nEND_READ_MATRIX#\n".toList

/-- The groups hold one channel each, 9. -/
def staleRaw (uiChCnt : Nat) : Raw :=
  ⟨⟨0, 0⟩, ⟨0, 0, 0, 0, 0, 0, 0, 0, 0⟩, fun _ => 0, fun _ => ⟨0, uiChCnt, fun _ => 9⟩⟩

theorem load_routed_group :
    (∃ chans gifo, gifoLoad (staleRaw 0) twoChannels oneGroup = .ok (chans, gifo) ∧
      Routed chans gifo oneGroup) ↔ TextsFit (staleRaw 0) twoChannels oneGroup := by
  apply load_routed
  intro dRet rejected
  have loads : (gifoLoad (staleRaw 0) twoChannels oneGroup).isOk = true := by decide +kernel
  rw [rejected] at loads
  cases loads

/-- A group whose structure held a channel before has three channels. -/
theorem stale_group_longer :
    ∃ chans gifo, gifoLoad (staleRaw 1) twoChannels oneGroup = .ok (chans, gifo) ∧
      (gifo.stGROUP 0).channels = [9, 0, 1] ∧ ¬Routed chans gifo oneGroup := by
  have lists : (gifoLoad (staleRaw 1) twoChannels oneGroup).map
      (fun loaded => (loaded.2.stGROUP 0).channels) = .ok [9, 0, 1] := by decide +kernel
  have declared : (groupLines oneGroup).map declaredChans = [[0, 1]] := by decide +kernel
  cases loaded : gifoLoad (staleRaw 1) twoChannels oneGroup with
  | error failure =>
      rw [loaded] at lists
      cases lists
  | ok result =>
      obtain ⟨chans, gifo⟩ := result
      rw [loaded] at lists
      have stale : (gifo.stGROUP 0).channels = [9, 0, 1] := Except.ok.inj lists
      refine ⟨chans, gifo, rfl, stale, ?_⟩
      intro routed
      cases lines : groupLines oneGroup with
      | nil =>
          rw [lines] at declared
          cases declared
      | cons line rest =>
          have listed := routed.lists 0 line (by rw [lines]; rfl)
          rw [lines] at declared
          rw [stale, (List.cons.inj declared).1] at listed
          cases listed

end Routing

end Upst.Gifo
