/-
# A cancellation takes the whole subtree

A cancel or kill control marks the sub-session as cancelled, collects what is below it over the
parent links of the rows and cancels what is still active there. The link of a row is the one of
its contract or else that of the column, which each write sets anew. Links may lead in circles,
also through rows that are no longer active.
-/

import Nobie.Orchestration.SubSessionLifeCycle

namespace Nobie.Orchestration.Writers

open List
open Relation (TransGen)

/-! ## Controls -/

/-- The table with its column `parent_sub_session_id`. No id is empty, as the commands that name
them are checked for it. -/
structure Store where
  table : Table
  parentColumn : String → Option String
  named : ∀ row ∈ table.rows, row.subSessionId ≠ ""

variable (store : Store)

/-- `contract?.identity.parent?.parentSubSessionId ?? row.parent_sub_session_id`. -/
def Store.linked (row : Contract) : Contract :=
  { row with parentSubSessionId := row.parentSubSessionId <|> store.parentColumn row.subSessionId }

/-- `transitionSubSessionStatus` to `cancelled` and `updateRunSubSession`. -/
def Store.cancel (subSession : Contract) : Store where
  table := storeRow store.table (subSession.withStatus .cancelled)
  parentColumn :=
    Function.update store.parentColumn subSession.subSessionId subSession.parentSubSessionId
  named := by
    unfold storeRow
    split
    · next after hupdate =>
      intro row hrow
      have hid := mem_map_of_mem (f := Contract.subSessionId) hrow
      rw [updateRunSubSession_rows hupdate, rewriteRows_ids] at hid
      obtain ⟨before, hbefore, hsame⟩ := mem_map.mp hid
      exact hsame ▸ store.named before hbefore
    · exact store.named

/-- `descendantSubSessionIds`. -/
def Store.descendants (parentRunId subSessionId : String) : List String :=
  let rows := (listRunSubSessionsForParentRun store.table parentRunId).map store.linked
  descend rows (2 * rows.length + 1) (childrenOf rows subSessionId) []

variable (state : Store × List String)

/-- The loop body of `cancelDescendantSubSessions`, with the ids that were cancelled. -/
def Store.cancelNext (subSessionId : String) : Store × List String :=
  match getRunSubSession state.1.table subSessionId with
  | none => state
  | some descendant =>
    if descendant.status ∉ activeControlStatuses then state
    else if canTransitionSubSessionStatus descendant.status .cancelled = false then state
    else (state.1.cancel descendant, state.2 ++ [descendant.subSessionId])

/-- `controlSubSession` with the action `cancel` or `kill`: the table after it and the affected
ids, where the control is accepted. -/
def Store.control (subSessionId : String) (expectedParentRunId : Option String) :
    Option (Store × List String) :=
  match getRunSubSession store.table subSessionId with
  | none => none
  | some subSession =>
    if ∃ expected ∈ expectedParentRunId, expected ≠ "" ∧ expected ≠ subSession.parentRunId then
      none
    else if subSession.status ∉ activeControlStatuses then none
    else if canTransitionSubSessionStatus subSession.status .cancelled = false then none
    else
      let cancelled := store.cancel subSession
      some ((cancelled.descendants subSession.parentRunId subSession.subSessionId).foldl
        Store.cancelNext (cancelled, [subSession.subSessionId]))

/-- A row of the same parent run leads from its parent to itself. -/
def Store.IsParent (parentRunId first second : String) : Prop :=
  ∃ row ∈ store.table.rows, row.parentRunId = parentRunId ∧ row.subSessionId = second ∧
    (store.linked row).parentSubSessionId = some first ∧ first ≠ ""

/-- Links lead from the first sub-session down to the second. -/
def Store.IsBelow (parentRunId : String) : String → String → Prop :=
  TransGen (store.IsParent parentRunId)

/-! ## The search -/

variable {result : List String} {id parentRunId first second : String} {root : Contract}

section Search

variable {rows : List Contract}

theorem mem_childrenOf {parent child : String} : child ∈ childrenOf rows parent ↔
    parent ≠ "" ∧ ∃ row ∈ rows, row.parentSubSessionId = some parent ∧ row.subSessionId = child := by
  unfold childrenOf
  split <;> simp_all [and_assoc]

/-- How many rows have a parent that the search has not come to. -/
def pending (rows : List Contract) (result : List String) : ℕ :=
  rows.countP fun row => row.parentSubSessionId.all (· ∉ result)

theorem pending_append (hnew : id ∉ result) :
    (childrenOf rows id).length + pending rows (result ++ [id]) ≤ pending rows result := by
  unfold childrenOf pending
  split
  · exact (Nat.zero_add _).trans_le (countP_mono_left fun row _ => by
      cases row.parentSubSessionId <;> simp_all)
  · rw [length_map, ← countP_eq_length_filter]
    induction rows with
    | nil => simp
    | cons row rest ih =>
      simp only [countP_cons]
      cases hparent : row.parentSubSessionId with
      | none => simp_all; omega
      | some parent =>
        by_cases hsame : parent = id
        · simp_all; omega
        · by_cases hmem : parent ∈ result
          · simp_all
          · simp_all
            omega

/-- With a turn for each id that is put on the stack the search finds all that the stack leads to,
and nothing else. -/
theorem descend_spec {fuel : ℕ} {stack : List String} (P : String → Prop)
    (hfuel : stack.length + pending rows result ≤ fuel) (hnodup : result.Nodup)
    (hresult : ∀ id ∈ result, P id) (hstack : ∀ id ∈ stack, P id)
    (hstep : ∀ id, P id → ∀ child ∈ childrenOf rows id, P child)
    (hclosed : ∀ id ∈ result, ∀ child ∈ childrenOf rows id,
      child = "" ∨ child ∈ result ∨ child ∈ stack) :
    let found := descend rows fuel stack result
    found.Nodup ∧ (∀ id ∈ found, P id) ∧ (∀ id ∈ stack, id = "" ∨ id ∈ found) ∧
      (∀ id ∈ result, id ∈ found) ∧
      ∀ id ∈ found, ∀ child ∈ childrenOf rows id, child = "" ∨ child ∈ found := by
  fun_induction descend rows fuel stack result with
  | case1 stack result =>
    have hempty : stack = [] := length_eq_zero_iff.mp (by omega)
    subst hempty
    grind
  | case2 => grind
  | case3 fuel childId stack result hskip ih =>
    rw [length_cons] at hfuel
    have := ih (by omega) hnodup hresult (fun id hid => hstack id (.tail _ hid)) (by grind)
    grind
  | case4 fuel childId stack result hnew ih =>
    have hpending : _ ≤ pending rows result := pending_append fun hmem => hnew (.inr hmem)
    rw [length_cons] at hfuel
    have hchild := hstack childId mem_cons_self
    have := ih (by rw [length_append]; omega) (by grind) (by grind) (by grind) (by grind)
    grind

end Search

/-! ## What is below a sub-session -/

variable {store : Store}

theorem mem_children_iff :
    second ∈ childrenOf
        ((listRunSubSessionsForParentRun store.table parentRunId).map store.linked) first ↔
      store.IsParent parentRunId first second := by
  rw [mem_childrenOf]
  unfold Store.IsParent listRunSubSessionsForParentRun
  constructor
  · rintro ⟨hfirst, linked, hlinked, hparent, hid⟩
    obtain ⟨row, hrow, rfl⟩ := mem_map.mp hlinked
    obtain ⟨hmem, hrun⟩ := mem_filter.mp hrow
    exact ⟨row, hmem, of_decide_eq_true hrun, hid, hparent, hfirst⟩
  · rintro ⟨row, hmem, hrun, hid, hparent, hfirst⟩
    exact ⟨hfirst, store.linked row,
      mem_map_of_mem (mem_filter.mpr ⟨hmem, decide_eq_true hrun⟩), hparent, hid⟩

theorem Store.IsParent.ne_empty (h : store.IsParent parentRunId first second) : second ≠ "" := by
  obtain ⟨row, hrow, -, rfl, -⟩ := h
  exact store.named row hrow

/-- The search lists what is below a sub-session, each once. -/
theorem Store.descendants_spec (store : Store) (parentRunId subSessionId : String) :
    (store.descendants parentRunId subSessionId).Nodup ∧
      ∀ id, id ∈ store.descendants parentRunId subSessionId ↔
        store.IsBelow parentRunId subSessionId id := by
  unfold Store.descendants
  generalize hrows :
    (listRunSubSessionsForParentRun store.table parentRunId).map store.linked = rows
  have hedge {first second : String} : second ∈ childrenOf rows first ↔
      store.IsParent parentRunId first second := by
    rw [← hrows]
    exact mem_children_iff
  have hfuel : (childrenOf rows subSessionId).length + pending rows [] ≤ 2 * rows.length + 1 := by
    have hchildren : (childrenOf rows subSessionId).length ≤ rows.length := by
      unfold childrenOf
      split
      · exact Nat.zero_le _
      · exact (length_map _).trans_le (length_filter_le _ _)
    have hpending : pending rows [] ≤ rows.length := countP_le_length
    omega
  obtain ⟨hnodup, hsound, hstack, -, hclosed⟩ :=
    descend_spec (store.IsBelow parentRunId subSessionId) hfuel nodup_nil nofun
      (fun id hid => .single (hedge.mp hid))
      (fun id hbelow child hchild => hbelow.tail (hedge.mp hchild)) nofun
  refine ⟨hnodup, fun id => ⟨hsound id, fun hbelow => ?_⟩⟩
  induction hbelow with
  | single hparent => exact (hstack _ (hedge.mpr hparent)).resolve_left hparent.ne_empty
  | tail _ hparent ih => exact (hclosed _ ih _ (hedge.mpr hparent)).resolve_left hparent.ne_empty

/-! ## Cancellations one by one -/

/-- Those of the ids that are active are cancelled. -/
def cancelAmong (ids : List String) (row : Contract) : Contract :=
  if row.subSessionId ∈ ids ∧ row.status ∈ activeControlStatuses then row.withStatus .cancelled
  else row

theorem cancelAmong_cons (id : String) (ids : List String) (row : Contract) :
    cancelAmong ids (cancelAmong [id] row) = cancelAmong (id :: ids) row := by
  have hcancelled : SubSessionStatus.cancelled ∉ activeControlStatuses := by decide
  unfold cancelAmong Contract.withStatus
  grind

/-- A row that was cancelled is not active. -/
theorem active_cancelAmong {rows : List Contract} {other : String} :
    (∃ row ∈ rows.map (cancelAmong [id]),
        row.subSessionId = other ∧ row.status ∈ activeControlStatuses) ↔
      other ≠ id ∧ ∃ row ∈ rows, row.subSessionId = other ∧ row.status ∈ activeControlStatuses := by
  have hcancelled : SubSessionStatus.cancelled ∉ activeControlStatuses := by decide
  unfold cancelAmong Contract.withStatus
  grind

theorem canCancel {status : SubSessionStatus} (h : status ∈ activeControlStatuses) :
    canTransitionSubSessionStatus status .cancelled = true := by
  revert h
  cases status <;> decide

theorem Store.cancel_rows {subSession : Contract} (hmem : subSession ∈ store.table.rows)
    (hactive : subSession.status ∈ activeControlStatuses) :
    (store.cancel subSession).table.rows =
      store.table.rows.map (cancelAmong [subSession.subSessionId]) := by
  refine (storeRow_rows hmem .cancelled).trans (map_congr_left fun row hrow => ?_)
  by_cases hid : row.subSessionId = subSession.subSessionId
  · rw [row_unique hmem hrow hid]
    exact (if_pos rfl).trans (if_pos ⟨mem_singleton_self _, hactive⟩).symm
  · exact (if_neg hid).trans (if_neg fun h => hid (mem_singleton.mp h.1)).symm

/-- One turn cancels the sub-session if it is active, and lists it then. -/
theorem Store.cancelNext_spec (id : String) :
    (Store.cancelNext state id).1.table.rows = state.1.table.rows.map (cancelAmong [id]) ∧
      ∃ added, (Store.cancelNext state id).2 = state.2 ++ added ∧ added.Nodup ∧
        ∀ other, other ∈ added ↔ other = id ∧ ∃ row ∈ state.1.table.rows,
          row.subSessionId = other ∧ row.status ∈ activeControlStatuses := by
  have hidle (h : ∀ row ∈ state.1.table.rows, row.subSessionId = id →
      row.status ∉ activeControlStatuses) :
      state.1.table.rows = state.1.table.rows.map (cancelAmong [id]) ∧
        ∃ added, state.2 = state.2 ++ added ∧ added.Nodup ∧
          ∀ other, other ∈ added ↔ other = id ∧ ∃ row ∈ state.1.table.rows,
            row.subSessionId = other ∧ row.status ∈ activeControlStatuses := by
    refine ⟨((map_congr_left fun row hrow => if_neg ?_).trans (map_id _)).symm, [],
      (append_nil _).symm, nodup_nil, fun other => iff_of_false not_mem_nil ?_⟩
    · exact fun ⟨hid, hactive⟩ => h row hrow (mem_singleton.mp hid) hactive
    · rintro ⟨rfl, row, hrow, hid, hactive⟩
      exact h row hrow hid hactive
  unfold Store.cancelNext
  split
  · next hnone =>
    refine hidle fun row hrow hid => ?_
    exact absurd (decide_eq_true hid) (find?_eq_none.mp hnone row hrow)
  · next descendant hfound =>
    obtain ⟨hmem, rfl⟩ := mem_of_getRunSubSession hfound
    split
    · next hinactive =>
      refine hidle fun row hrow hid => ?_
      rwa [row_unique hmem hrow hid]
    · next hactive =>
      have hactive := not_not.mp hactive
      rw [if_neg (by simp [canCancel hactive])]
      refine ⟨Store.cancel_rows hmem hactive, _, rfl, nodup_singleton _, fun other => ?_⟩
      rw [mem_singleton]
      exact ⟨fun hother => ⟨hother, descendant, hmem, hother.symm, hactive⟩, And.left⟩

/-- The turns for several ids. -/
theorem Store.foldl_cancelNext (ids : List String) (state : Store × List String) :
    (ids.foldl Store.cancelNext state).1.table.rows = state.1.table.rows.map (cancelAmong ids) ∧
      ∃ added, (ids.foldl Store.cancelNext state).2 = state.2 ++ added ∧ added.Nodup ∧
        ∀ other, other ∈ added ↔ other ∈ ids ∧ ∃ row ∈ state.1.table.rows,
          row.subSessionId = other ∧ row.status ∈ activeControlStatuses := by
  induction ids generalizing state with
  | nil =>
    refine ⟨((map_congr_left fun row _ => if_neg fun h => not_mem_nil h.1).trans
      (map_id _)).symm, [], (append_nil _).symm, nodup_nil, by simp⟩
  | cons id rest ih =>
    obtain ⟨hrows, added, hadded, hnodup, hmem⟩ := Store.cancelNext_spec state id
    obtain ⟨hrows', added', hadded', hnodup', hmem'⟩ := ih (Store.cancelNext state id)
    rw [hrows] at hrows' hmem'
    rw [foldl_cons]
    refine ⟨?_, added ++ added', by rw [hadded', hadded, append_assoc], ?_, fun other => ?_⟩
    · rw [hrows', map_map]
      exact map_congr_left fun row _ => cancelAmong_cons id rest row
    · refine hnodup.append hnodup' fun other hother hother' => ?_
      exact (active_cancelAmong.mp ((hmem' other).mp hother').2).1 ((hmem other).mp hother).1
    · rw [mem_append, hmem, hmem', active_cancelAmong, mem_cons]
      grind

/-! ## The subtree -/

section

variable (hroot : root ∈ store.table.rows) (hactive : root.status ∈ activeControlStatuses)
include hroot hactive

/-- A cancellation changes no link but the one of the sub-session itself. -/
theorem Store.isParent_cancel (hother : second ≠ root.subSessionId) :
    (store.cancel root).IsParent parentRunId first second ↔
      store.IsParent parentRunId first second := by
  have hlinked {row : Contract} (hrow : row.subSessionId ≠ root.subSessionId) :
      (store.cancel root).linked row = store.linked row := by
    have hcolumn : (store.cancel root).parentColumn row.subSessionId =
        store.parentColumn row.subSessionId := Function.update_of_ne hrow _ _
    unfold Store.linked
    rw [hcolumn]
  unfold Store.IsParent
  rw [Store.cancel_rows hroot hactive]
  constructor
  · rintro ⟨later, hlater, hrun, rfl, hparent⟩
    obtain ⟨row, hrow, rfl⟩ := mem_map.mp hlater
    have hsame : cancelAmong [root.subSessionId] row = row := by
      unfold cancelAmong at hother ⊢
      refine if_neg fun h => hother ?_
      rw [if_pos h]
      exact mem_singleton.mp h.1
    rw [hsame] at hrun hother hparent ⊢
    exact ⟨row, hrow, hrun, rfl, hlinked hother ▸ hparent⟩
  · rintro ⟨row, hrow, hrun, rfl, hparent⟩
    have hsame : cancelAmong [root.subSessionId] row = row :=
      if_neg fun h => hother (mem_singleton.mp h.1)
    exact ⟨row, mem_map.mpr ⟨row, hrow, hsame⟩, hrun, rfl, (hlinked hother).symm ▸ hparent⟩

/-- Apart from the sub-session itself, the same is below it after it was cancelled. -/
theorem Store.below_cancel (hother : id ≠ root.subSessionId) :
    (store.cancel root).IsBelow parentRunId root.subSessionId id ↔
      store.IsBelow parentRunId root.subSessionId id := by
  have htransfer {first second : Store} (hedge : ∀ from? to?, to? ≠ root.subSessionId →
      first.IsParent parentRunId from? to? → second.IsParent parentRunId from? to?) {last : String}
      (h : first.IsBelow parentRunId root.subSessionId last) :
      last = root.subSessionId ∨ second.IsBelow parentRunId root.subSessionId last := by
    induction h with
    | @single last hparent =>
      by_cases hlast : last = root.subSessionId
      · exact .inl hlast
      · exact .inr (.single (hedge _ _ hlast hparent))
    | @tail middle last _ hparent ih =>
      by_cases hlast : last = root.subSessionId
      · exact .inl hlast
      · have hparent := hedge _ _ hlast hparent
        rcases ih with rfl | hbelow
        · exact .inr (.single hparent)
        · exact .inr (hbelow.tail hparent)
  constructor
  · exact fun h => (htransfer (fun _ _ hne => (isParent_cancel hroot hactive hne).mp)
      h).resolve_left hother
  · exact fun h => (htransfer (fun _ _ hne => (isParent_cancel hroot hactive hne).mpr)
      h).resolve_left hother

end

/-- The sub-session of a control and what is below it. -/
def Store.InSubtree (store : Store) (root : Contract) (id : String) : Prop :=
  id = root.subSessionId ∨ store.IsBelow root.parentRunId root.subSessionId id

/-- An accepted cancellation leaves nothing active in the subtree of the sub-session, lists what it
cancelled once, and changes nothing else. -/
theorem control_cancels_subtree {store after : Store} {subSessionId : String}
    {expectedParentRunId : Option String} {affected : List String}
    (h : store.control subSessionId expectedParentRunId = some (after, affected)) :
    ∃ root ∈ store.table.rows, root.subSessionId = subSessionId ∧
      root.status ∈ activeControlStatuses ∧
      (∀ row ∈ after.table.rows, store.InSubtree root row.subSessionId →
        row.status ∉ activeControlStatuses) ∧
      affected.Nodup ∧
      (∀ id, id ∈ affected ↔ store.InSubtree root id ∧ ∃ row ∈ store.table.rows,
        row.subSessionId = id ∧ row.status ∈ activeControlStatuses) ∧
      after.table.rows = store.table.rows.map fun row =>
        if row.subSessionId ∈ affected then row.withStatus .cancelled else row := by
  unfold Store.control at h
  split at h
  · cases h
  · next root hfound =>
    obtain ⟨hroot, rfl⟩ := mem_of_getRunSubSession hfound
    split at h
    · cases h
    · split at h
      · cases h
      · next hactive =>
        have hactive := not_not.mp hactive
        rw [if_neg (by simp [canCancel hactive])] at h
        dsimp only at h
        generalize hids : (store.cancel root).descendants root.parentRunId root.subSessionId =
          ids at h
        obtain ⟨hrows, added, hadded, hnodup, hadds⟩ :=
          Store.foldl_cancelNext ids (store.cancel root, [root.subSessionId])
        rw [Option.some.inj h] at hrows hadded
        rw [Store.cancel_rows hroot hactive] at hrows hadds
        dsimp only at hrows hadded
        have hsubtree (id : String) :
            id = root.subSessionId ∨ id ∈ ids ↔ store.InSubtree root id := by
          rw [← hids, ((store.cancel root).descendants_spec _ _).2]
          by_cases hid : id = root.subSessionId
          · exact iff_of_true (.inl hid) (.inl hid)
          · exact or_congr_right (Store.below_cancel hroot hactive hid)
        have haffected (id : String) : id ∈ affected ↔ store.InSubtree root id ∧
            ∃ row ∈ store.table.rows, row.subSessionId = id ∧
              row.status ∈ activeControlStatuses := by
          rw [hadded, ← hsubtree, mem_append, mem_singleton, hadds, active_cancelAmong]
          have hself : ∃ row ∈ store.table.rows, row.subSessionId = root.subSessionId ∧
            row.status ∈ activeControlStatuses := ⟨root, hroot, rfl, hactive⟩
          grind
        have hafter : after.table.rows = store.table.rows.map fun row =>
            if row.subSessionId ∈ affected then row.withStatus .cancelled else row := by
          rw [hrows, map_map]
          refine map_congr_left fun row hrow => ?_
          rw [Function.comp_apply, cancelAmong_cons]
          refine if_congr ?_ rfl rfl
          rw [haffected, mem_cons, hsubtree]
          refine and_congr_right fun _ => ⟨fun hstatus => ⟨row, hrow, rfl, hstatus⟩, ?_⟩
          rintro ⟨found, hfound, hid, hstatus⟩
          rwa [← row_unique hrow hfound hid]
        refine ⟨root, hroot, rfl, hactive, fun later hlater hbelow => ?_, ?_, haffected, hafter⟩
        · rw [hafter] at hlater
          obtain ⟨row, hrow, rfl⟩ := mem_map.mp hlater
          by_cases hkept : row.subSessionId ∈ affected
          · rw [if_pos hkept]
            show SubSessionStatus.cancelled ∉ activeControlStatuses
            decide
          · rw [if_neg hkept] at hbelow ⊢
            exact fun hstatus => hkept ((haffected _).mpr ⟨hbelow, row, hrow, rfl, hstatus⟩)
        · rw [hadded]
          refine (nodup_singleton _).append hnodup fun id hself hadded => ?_
          exact (active_cancelAmong.mp ((hadds id).mp hadded).2).1 (mem_singleton.mp hself)

/-- A circle of three sub-sessions, one of them completed. -/
def circle : Store where
  table :=
    { rows := [⟨"lead", "run", some "writer", "lead", .running⟩,
        ⟨"editor", "run", some "lead", "editor", .completed⟩,
        ⟨"writer", "run", none, "writer", .queued⟩]
      distinctIds := by decide
      distinctKeys := by decide }
  parentColumn := fun _ => some "editor"
  named := by decide

theorem control_cancels_subtree_circle : ∃ after affected,
    circle.control "lead" none = some (after, affected) ∧ affected.Nodup := by
  have hsome : (circle.control "lead" none).isSome = true := by decide +kernel
  obtain ⟨⟨after, affected⟩, hcontrol⟩ := Option.isSome_iff_exists.mp hsome
  obtain ⟨root, -, -, -, -, hnodup, -⟩ := control_cancels_subtree hcontrol
  exact ⟨after, affected, hcontrol, hnodup⟩

end Nobie.Orchestration.Writers
