import FormulaEngine.Proofs.Arena.Import

/-!
# Numbers of new nodes

All that an allocation does to the nodes of an arena are pushes.  A push hands
out the number of nodes so far, so numbers are handed out one after the other and
none of them twice, whatever the order in which nodes are allocated, copied and
attached.  The largest number, which stands for no node, is no exception: the
push that fills an arena hands it out.
-/

namespace FormulaEngine

open Stateful

/-- Only the last of all numbers stands for no node. -/
theorem NodeId.isValid_iff (id : NodeId) :
    id.isValid = true ↔ id.index + 1 ≠ UInt32.size := by
  have last : id = invalid ↔ id.index + 1 = UInt32.size := by
    constructor
    · rintro rfl
      rfl
    · intro isLast
      have largest : invalid.index + 1 = UInt32.size := rfl
      exact index_injective (by omega)
  simp [isValid, last]

/-- An arena lacks the room for what has been refused: a storage is full, or a list
is too long for a range. -/
def Arena.LacksRoom (arena : Arena) : AllocationError → Prop
  | .nodes => UInt32.size ≤ arena.size
  | .childLists => UInt32.size ≤ arena.childLists.size
  | .parameters => UInt32.size ≤ arena.parameters.size
  | .callArguments count | .lambdaParameters count => rangeLimit < count
  | .missing _ _ => False

/-- The message of a refusal says of what there is too much. -/
def AllocationError.ReportsCapacity (cause : AllocationError) : Prop :=
  ∃ what, cause.message = "arena capacity exceeded: too many " ++ what ∨
    ∃ count, Arena.rangeLimit < count ∧ cause.message =
      "too many " ++ what ++ ": " ++ count.repr ++ " exceeds 65535"

theorem Arena.LacksRoom.reportsCapacity {arena : Arena}
    {cause : AllocationError} (lacks : arena.LacksRoom cause) :
    cause.ReportsCapacity := by
  cases cause with
  | nodes => exact ⟨"expressions", .inl rfl⟩
  | childLists => exact ⟨"expression list entries", .inl rfl⟩
  | parameters => exact ⟨"parameters", .inl rfl⟩
  | callArguments count => exact ⟨"call arguments", .inr ⟨count, lacks, rfl⟩⟩
  | lambdaParameters count =>
      exact ⟨"lambda parameters", .inr ⟨count, lacks, rfl⟩⟩
  | missing => exact lacks.elim

namespace Arena

variable {first before middle after : Arena} {issued more : List NodeId}
  {id : NodeId}

/-! ### Runs of pushes -/

theorem isAddressable_iff {index : Nat} :
    isAddressable index = true ↔ index < UInt32.size :=
  decide_eq_true_iff

theorem push_of_room (before : Arena) (node : StoredNode)
    (room : before.size < UInt32.size) :
    push node before =
      .ok (NodeId.ofIndex before.size)
        { before with nodes := before.nodes.push node } :=
  if_pos (isAddressable_iff.mpr room)

theorem push_of_full (before : Arena) (node : StoredNode)
    (full : UInt32.size ≤ before.size) :
    push node before = .error .nodes before :=
  if_neg (mt isAddressable_iff.mp (Nat.not_lt.mpr full))

/-- A push hands out the number of nodes so far. -/
theorem size_of_push {node : StoredNode}
    (pushed : push node before = .ok id after) :
    id.index = before.size ∧ after.size = before.size + 1 := by
  by_cases room : before.size < UInt32.size
  · rw [push_of_room before node room] at pushed
    obtain ⟨rfl, rfl⟩ := EStateM.Result.ok.inj pushed
    exact ⟨NodeId.index_ofIndex room, Array.size_push _⟩
  · rw [push_of_full before node (Nat.le_of_not_lt room)] at pushed
    cases pushed

/-- From the arena `first` on, pushes have handed out the numbers `issued`, in
order.  Between pushes other storages may have changed. -/
inductive Pushes (first : Arena) : List NodeId → Arena → Prop
  | start : Pushes first [] first
  | store {issued : List NodeId} {before after : Arena}
      (earlier : Pushes first issued before)
      (same : after.nodes = before.nodes) : Pushes first issued after
  | push {issued : List NodeId} {before after : Arena} {id : NodeId}
      (node : StoredNode) (earlier : Pushes first issued before)
      (pushed : Arena.push node before = .ok id after) :
      Pushes first (issued ++ [id]) after

namespace Pushes

theorem trans (early : first.Pushes issued before)
    (late : before.Pushes more after) : first.Pushes (issued ++ more) after := by
  induction late with
  | start => rwa [List.append_nil]
  | store _ same ih => exact ih.store same
  | push node _ pushed ih =>
      rw [← List.append_assoc]
      exact ih.push node pushed

/-- Numbers are handed out one after the other. -/
theorem numbered (pushes : first.Pushes issued after) :
    issued.map NodeId.index = List.range' first.size issued.length ∧
      after.size = first.size + issued.length := by
  induction pushes with
  | start => exact ⟨rfl, rfl⟩
  | store _ same ih => exact ⟨ih.1, by rw [size, same, ← size, ih.2]⟩
  | push node _ pushed ih =>
      obtain ⟨index, grown⟩ := size_of_push pushed
      rw [List.map_append, ih.1, List.map_singleton, index, ih.2,
        List.length_append, List.length_singleton, List.range'_1_concat, grown,
        ih.2]
      exact ⟨rfl, Nat.add_assoc ..⟩

theorem nodup (pushes : first.Pushes issued after) : issued.Nodup := by
  apply List.Nodup.of_map NodeId.index
  rw [pushes.numbered.1]
  exact List.nodup_range'

/-- The number handed out last is that of the latest node. -/
theorem latest (pushes : first.Pushes (issued ++ [id]) after) :
    id.index + 1 = after.size := by
  obtain ⟨indexes, size⟩ := pushes.numbered
  rw [List.map_append, List.length_append, List.length_singleton,
    List.range'_1_concat] at indexes
  have last := List.append_inj_right' indexes rfl
  rw [List.map_singleton, List.singleton_inj] at last
  rw [size, last, List.length_append, List.length_singleton, Nat.add_assoc]

/-- The numbers handed out since an arena was empty are those of its nodes. -/
theorem mem_of_contains (pushes : empty.Pushes issued after)
    (inside : after.Contains id) : id ∈ issued := by
  have isIndex : id.index ∈ issued.map NodeId.index := by
    rw [pushes.numbered.1, List.mem_range'_1, ← pushes.numbered.2]
    exact ⟨Nat.zero_le _, inside⟩
  obtain ⟨other, member, same⟩ := List.mem_map.mp isIndex
  rwa [← NodeId.index_injective same]

end Pushes

/-- On the way from one arena to another, `id` has been handed out, after the
numbers `earlier` and as the last one: the number of nodes before its push, which
no push has handed out before.  It stands for a node unless the arena is full. -/
structure Issues (before : Arena) (earlier : List NodeId) (id : NodeId)
    (after : Arena) : Prop where
  pushes : before.Pushes (earlier ++ [id]) after
  fresh : ∀ (first : Arena) (issued : List NodeId),
    first.Pushes issued before → id ∉ issued ++ earlier
  index_eq : id.index = before.size + earlier.length
  latest : id.index + 1 = after.size
  isValid_iff : id.isValid = true ↔ after.size ≠ UInt32.size

theorem Pushes.issues {earlier : List NodeId}
    (pushes : before.Pushes (earlier ++ [id]) after) :
    before.Issues earlier id after := by
  have latest := pushes.latest
  have size := pushes.numbered.2
  rw [List.length_append, List.length_singleton] at size
  refine ⟨pushes, fun first issued history => ?_, by omega, latest, ?_⟩
  · have nodup := (history.trans pushes).nodup
    rw [← List.append_assoc, List.nodup_append] at nodup
    exact fun member => nodup.2.2 id member id (List.mem_singleton_self id) rfl
  · rw [id.isValid_iff, latest]

/-- An allocation has been refused for want of room, after some pushes. -/
structure Refuses (before : Arena) (cause : AllocationError) (after : Arena) :
    Prop where
  lacks : after.LacksRoom cause
  reports : cause.ReportsCapacity
  pushes : ∃ issued, before.Pushes issued after

/-- Whatever an arena has grown to, pushes lead there. -/
theorem Extends.exists_pushes (grows : first.Extends after)
    (fits : after.size ≤ UInt32.size) :
    ∃ issued, first.Pushes issued after := by
  obtain ⟨added, grown⟩ := grows.nodes
  have reached : first.nodes.size + added.length ≤ UInt32.size →
      ∃ issued, first.Pushes issued
        { first with nodes := (first.nodes.toList ++ added).toArray } := by
    clear grown
    induction added using List.reverseRecOn with
    | nil => exact fun _ => ⟨[], Pushes.start.store (by simp)⟩
    | append_singleton added node ih =>
        rw [List.length_append, List.length_singleton]
        intro fits
        obtain ⟨issued, pushes⟩ := ih (by omega)
        have pushed := push_of_room
          { first with nodes := (first.nodes.toList ++ added).toArray } node
          (by simp [size]; omega)
        exact ⟨_, (pushes.push node pushed).store (by simp)⟩
  have size : after.size = first.nodes.size + added.length := by
    simpa [Arena.size] using (congrArg List.length grown).symm
  obtain ⟨issued, pushes⟩ := reached (by omega)
  exact ⟨issued, pushes.store (Array.toList_inj.mp grown.symm)⟩

/-! ### Allocations -/

/-- A computation works in an arena by pushes.  Where it returns, `returns`
describes the result, the numbers that were handed out and the state after it;
where it fails, it is `refused`. -/
def ByPushes {Error State Result : Type} (arena : State → Arena)
    (refused : Error → State → Prop) (computation : EStateM Error State Result)
    (before : State) (returns : Result → List NodeId → State → Prop) : Prop :=
  Leads computation before
    (fun result after => ∃ issued,
      (arena before).Pushes issued (arena after) ∧ returns result issued after)
    (fun error after => refused error after ∧
      ∃ issued, (arena before).Pushes issued (arena after))

section ByPushes

variable {Error State Result Next : Type} {arena : State → Arena}
  {refused : Error → State → Prop} {before : State}
  {computation : EStateM Error State Result}
  {next : Result → EStateM Error State Next}

theorem byPushes_pure {result : Result}
    {returns : Result → List NodeId → State → Prop}
    (holds : returns result [] before) :
    ByPushes arena refused (pure result) before returns :=
  leads_pure ⟨[], .start, holds⟩

/-- Numbers are handed out by the first of two computations, then by the
second. -/
theorem ByPushes.bind {returns : Result → List NodeId → State → Prop}
    {returnsNext : Next → List NodeId → State → Prop}
    (works : ByPushes arena refused computation before returns)
    (worksOn : ∀ result issued middle, returns result issued middle →
      ByPushes arena refused (next result) middle fun value more after =>
        returnsNext value (issued ++ more) after) :
    ByPushes arena refused (computation >>= next) before returnsNext := by
  apply leads_bind works
  rintro result middle ⟨issued, early, holds⟩
  refine Leads.imp_error (Leads.imp (worksOn result issued middle holds) ?_) ?_
  · rintro value after ⟨more, late, holdsNext⟩
    exact ⟨issued ++ more, early.trans late, holdsNext⟩
  · rintro error after ⟨isRefused, more, late⟩
    exact ⟨isRefused, issued ++ more, early.trans late⟩

end ByPushes

/-- An allocation works by pushes in its arena and is refused for want of room. -/
abbrev AllocatesByPushes {Result : Type} (allocation : Allocation Result)
    (before : Arena) (returns : Result → List NodeId → Prop) : Prop :=
  ByPushes (fun arena => arena) (fun cause after => after.LacksRoom cause)
    allocation before fun result issued _ => returns result issued

section Allocation

/-- An allocation by pushes ensures what its pushes do, or it is refused. -/
theorem AllocatesByPushes.leads {Result : Type}
    {allocation : Allocation Result} {returns : Result → List NodeId → Prop}
    {ensured : Result → Arena → Prop}
    (works : AllocatesByPushes allocation before returns)
    (ensures : ∀ result issued after, before.Pushes issued after →
      returns result issued → ensured result after) :
    Leads allocation before ensured before.Refuses := by
  refine Leads.imp_error (Leads.imp works ?_) ?_
  · rintro result after ⟨issued, pushes, holds⟩
    exact ensures result issued after pushes holds
  · rintro cause after ⟨lacks, pushes⟩
    exact ⟨lacks, lacks.reportsCapacity, pushes⟩

theorem byPushes_push (node : StoredNode) (before : Arena) :
    AllocatesByPushes (push node) before fun id issued => issued = [id] := by
  unfold AllocatesByPushes ByPushes Leads
  by_cases room : before.size < UInt32.size
  · rw [push_of_room before node room]
    exact ⟨_, Pushes.start.push node (push_of_room before node room), rfl⟩
  · rw [push_of_full before node (Nat.le_of_not_lt room)]
    exact ⟨Nat.le_of_not_lt room, [], .start⟩

theorem byPushes_pushEntries {Entry : Type} {storage : Arena → Array Entry}
    {append : Arena → Arena} {full tooMany : AllocationError}
    {entries : List Entry} {before : Arena}
    (same : (append before).nodes = before.nodes)
    (whenFull : UInt32.size ≤ (storage before).size → before.LacksRoom full)
    (whenLong : rangeLimit < entries.length →
      (append before).LacksRoom tooMany) :
    AllocatesByPushes (pushEntries storage append full tooMany entries) before
      fun _ issued => issued = [] := by
  unfold AllocatesByPushes ByPushes Leads
  dsimp only [pushEntries]
  by_cases room : (storage before).size < UInt32.size
  · rw [if_pos (isAddressable_iff.mpr room)]
    by_cases short : entries.length ≤ rangeLimit
    · rw [if_pos short]
      exact ⟨[], Pushes.start.store same, rfl⟩
    · rw [if_neg short]
      exact ⟨whenLong (Nat.lt_of_not_le short), [], Pushes.start.store same⟩
  · rw [if_neg (mt isAddressable_iff.mp room)]
    exact ⟨whenFull (Nat.le_of_not_lt room), [], .start⟩

theorem byPushes_pushArguments (arguments : List NodeId) (before : Arena) :
    AllocatesByPushes (pushArguments arguments) before
      fun _ issued => issued = [] :=
  byPushes_pushEntries rfl (fun full => full) fun long => long

theorem byPushes_pushParameters (parameters : List Parameter) (before : Arena) :
    AllocatesByPushes (pushParameters parameters) before
      fun _ issued => issued = [] :=
  byPushes_pushEntries rfl (fun full => full) fun long => long

theorem byPushes_pushCall (function : FunctionName) (arguments : List NodeId)
    (before : Arena) :
    AllocatesByPushes (pushCall function arguments) before
      fun id issued => issued = [id] := by
  apply (byPushes_pushArguments arguments before).bind
  rintro range _ middle rfl
  exact byPushes_push _ middle

/-- A node over children in a number that fits its shape is one push. -/
theorem byPushes_allocate {shape : Shape} {children : List NodeId}
    (fits : shape.admits children.length) (before : Arena) :
    AllocatesByPushes (allocate shape children) before
      fun id issued => issued = [id] := by
  cases shape with
  | value literal => exact byPushes_push _ before
  | reference name => exact byPushes_push _ before
  | unary op =>
      obtain ⟨operand, rfl⟩ :=
        List.length_eq_one_iff.mp (Shape.count_of_admits fits rfl)
      exact byPushes_push _ before
  | binary op =>
      obtain ⟨left, right, rfl⟩ :=
        List.length_eq_two.mp (Shape.count_of_admits fits rfl)
      exact byPushes_push _ before
  | call function => exact byPushes_pushCall function children before
  | lambda parameters =>
      obtain ⟨body, rfl⟩ :=
        List.length_eq_one_iff.mp (Shape.count_of_admits fits rfl)
      apply (byPushes_pushParameters parameters before).bind
      rintro range _ middle rfl
      exact byPushes_push _ middle

/-- So is a copy of a node over other children. -/
theorem byPushes_rebuild {source : NodeId} {children : List NodeId}
    {before : Arena} (fits : (before.shape source).admits children.length) :
    AllocatesByPushes (rebuild source children) before
      fun id issued => issued = [id] := by
  cases stored : before.stored source with
  | lambda range body =>
      rw [shape, stored] at fits
      obtain ⟨operand, rfl⟩ :=
        List.length_eq_one_iff.mp (Shape.count_of_admits fits rfl)
      have works := byPushes_push (.lambda range operand) before
      simp only [AllocatesByPushes, ByPushes, Leads, rebuild_lambda stored]
      exact works
  | _ =>
      have noLambda : ∀ parameters, before.shape source ≠ .lambda parameters := by
        simp [shape, stored, shapeOf]
      simpa only [AllocatesByPushes, ByPushes, Leads,
        rebuild_eq_allocate noLambda] using byPushes_allocate fits before

variable {source : Arena} {root : NodeId}

/-- The nodes of a subtree are attached in order, one push for each. -/
theorem byPushes_attachAll (wellFormed : source.WellFormed)
    {done rest ids : List NodeId} (split : source.postOrder root = done ++ rest)
    (known : ids.length = done.length) (before : Arena) :
    AllocatesByPushes (attachAll ids
      (rest.map fun id => ⟨source.shape id, (source.children id).map
        fun child => (source.postOrder root).idxOf child⟩)) before
      fun result issued => result = ids ++ issued ∧
        issued.length = rest.length := by
  -- `ids` has a number for every node that is done, so no slot is missing.
  induction rest generalizing done ids before with
  | nil => exact byPushes_pure ⟨(List.append_nil _).symm, rfl⟩
  | cons id rest ih =>
      have slots : ∀ child ∈ source.children id,
          ids[(source.postOrder root).idxOf child]? =
            some (ids.getD ((source.postOrder root).idxOf child) .invalid) := by
        intro child isChild
        have isDone := wellFormed.children_first root split child isChild
        have inside : (source.postOrder root).idxOf child < ids.length := by
          rw [split, List.idxOf_append_of_mem isDone, known]
          exact List.idxOf_lt_length_of_mem isDone
        rw [List.getD_eq_getElem?_getD, List.getElem?_eq_getElem inside,
          Option.getD_some]
      rw [List.map_cons, attachAll]
      apply leads_bind_of_ok (mapM_entry slots before)
      apply (byPushes_allocate (by
        rw [List.length_map]
        exact admits_children source id) before).bind
      rintro new _ middle rfl
      have splitOn : source.postOrder root = (done ++ [id]) ++ rest := by
        rw [split, List.append_assoc]
        rfl
      have knownOn : (ids ++ [new]).length = (done ++ [id]).length := by
        rw [List.length_append, List.length_append, known]
        rfl
      refine Leads.imp (ih splitOn knownOn middle) ?_
      rintro result after ⟨issued, pushes, rfl, count⟩
      exact ⟨issued, pushes, List.append_assoc .., by simp [count]⟩

/-- The root of an attached subtree has the number handed out last. -/
theorem byPushes_attach (wellFormed : source.WellFormed) (root : NodeId)
    (before : Arena) :
    AllocatesByPushes (attach (source.detach root)) before
      fun id issued => ∃ earlier, issued = earlier ++ [id] := by
  apply (byPushes_attachAll wellFormed (List.nil_append _).symm rfl before).bind
  rintro ids issued middle ⟨isIssued, count⟩
  rw [List.nil_append] at isIssued
  subst isIssued
  have isRoot := wellFormed.getLast?_postOrder root
  have nonempty : ids ≠ [] := by
    rintro rfl
    rw [List.eq_nil_of_length_eq_zero count.symm] at isRoot
    cases isRoot
  refine byPushes_pure ⟨ids.dropLast, ?_⟩
  rw [List.append_nil, List.getLast?_eq_some_getLast nonempty, Option.getD_some,
    List.dropLast_append_getLast]

end Allocation

end Arena
end FormulaEngine
