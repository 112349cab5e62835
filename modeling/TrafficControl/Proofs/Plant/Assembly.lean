import Mathlib
import TrafficControl.Proofs.Plant.Drawing

namespace TrafficControl

inductive Halt where
  | refused (fault : PlantFault)
  | outOfRange
  | overflow
deriving DecidableEq

/-- The paths at each point, one row after the other, with the places where the rows start and the
    one where the last row ends. -/
structure PathIndex where
  starts : List Nat
  entries : List PathId
deriving DecidableEq, Repr

def Path.ends (p : Path) : List PointId :=
  if p.destination = p.source then [p.source] else [p.source, p.destination]

namespace PathIndex

def ofRows (rows : List (List PathId)) : PathIndex :=
  ⟨(rows.map List.length).partialSums, rows.flatten⟩

def row? (index : PathIndex) (point : PointId) : Option (List PathId) :=
  match index.starts[point.index]?, index.starts[point.index + 1]? with
  | some start, some stop =>
    if start ≤ stop ∧ stop ≤ index.entries.length then
      some ((index.entries.take stop).drop start)
    else none
  | _, _ => none

theorem row?_ofRows (rows : List (List PathId)) (point : PointId) :
    (ofRows rows).row? point = rows[point.index]? := by
  unfold row? ofRows
  simp only [List.getElem?_partialSums, List.length_map]
  by_cases known : point.index < rows.length
  · have total : (rows.map List.length).sum = rows.flatten.length := List.length_flatten.symm
    have steps : ((rows.map List.length).take (point.index + 1)).sum =
        ((rows.map List.length).take point.index).sum + rows[point.index].length := by
      rw [List.take_add_one, List.sum_append]
      simp [known]
    have inside : ((rows.map List.length).take (point.index + 1)).sum ≤ rows.flatten.length := by
      rw [← total]
      exact List.Sublist.sum_le_sum (List.take_sublist _ _) (by simp)
    rw [if_pos (by omega), if_pos (by omega), List.getElem?_eq_getElem known]
    simp only [List.drop_take_succ_flatten_eq_getElem rows point.index known]
    rw [if_pos ⟨by omega, inside⟩]
  · rw [List.getElem?_eq_none_iff.mpr (by omega)]
    by_cases last : point.index ≤ rows.length
    · rw [if_pos last, if_neg (by omega)]
    · rw [if_neg last]

def read {α : Type} (l : List α) (i : Nat) : Except Halt α :=
  match l[i]? with
  | some a => .ok a
  | none => .error .outOfRange

def write {α : Type} (l : List α) (i : Nat) (a : α) : Except Halt (List α) :=
  if i < l.length then .ok (l.set i a) else .error .outOfRange

def add (a b : Nat) : Except Halt Nat :=
  if a + b ≤ Ident.last then .ok (a + b) else .error .overflow

/-- Counts one more path at a point. What a point counts is kept one place further. -/
def tally (counts : List Nat) (point : PointId) : Except Halt (List Nat) := do
  let n ← read counts (point.index + 1)
  write counts (point.index + 1) (← add n 1)

def accumulate (counts : List Nat) (i : Nat) : Except Halt (List Nat) := do
  let n ← read counts i
  let before ← read counts (i - 1)
  write counts i (← add n before)

structure Filling where
  next : List Nat
  entries : List PathId

def enter (f : Filling) (visit : PointId × PathId) : Except Halt Filling := do
  let place ← read f.next visit.1.index
  let entries ← write f.entries place visit.2
  return { entries, next := ← write f.next visit.1.index (← add place 1) }

/-- Three passes: how many paths there are at each point, where each row starts, and the entries. -/
def ofVisits (pointCount : Nat) (visits : List (PointId × PathId)) : Except Halt PathIndex := do
  let counts ← visits.foldlM (fun counts visit => tally counts visit.1)
    (List.replicate (pointCount + 1) 0)
  let starts ← (List.range' 1 pointCount).foldlM accumulate counts
  let size ← read starts pointCount
  let filled ← visits.foldlM enter { next := starts, entries := List.replicate size .invalid }
  return { starts, entries := filled.entries }

def visit (rows : List (List PathId)) (v : PointId × PathId) : List (List PathId) :=
  rows.modify v.1.index (· ++ [v.2])

variable {rows : List (List PathId)} {visits : List (PointId × PathId)} {v : PointId × PathId}
  {f : Filling}

theorem visit_split (known : v.1.index < rows.length) : ∃ before row after,
    rows = before ++ row :: after ∧ before.length = v.1.index ∧
      visit rows v = before ++ (row ++ [v.2]) :: after :=
  List.exists_of_modify _ known

theorem length_visit : (visit rows v).length = rows.length := List.length_modify ..

theorem length_visits : (visits.foldl visit rows).length = rows.length := by
  induction visits generalizing rows with
  | nil => rfl
  | cons v rest ih => rw [List.foldl_cons, ih, length_visit]

theorem length_flatten_visit (known : v.1.index < rows.length) :
    (visit rows v).flatten.length = rows.flatten.length + 1 := by
  obtain ⟨before, row, after, rfl, -, visited⟩ := visit_split known
  rw [visited]
  simp only [List.length_flatten, List.map_append, List.map_cons, List.sum_append, List.sum_cons,
    List.length_append, List.length_singleton]
  omega

theorem length_flatten_visits (known : ∀ v ∈ visits, v.1.index < rows.length) :
    (visits.foldl visit rows).flatten.length = rows.flatten.length + visits.length := by
  induction visits generalizing rows with
  | nil => rfl
  | cons v rest ih =>
    obtain ⟨first, later⟩ := List.forall_mem_cons.mp known
    rw [List.foldl_cons, ih (by rwa [length_visit]), length_flatten_visit first, List.length_cons]
    omega

theorem tally_eq (known : v.1.index < rows.length) : ∃ row ∈ rows,
    tally (0 :: rows.map List.length) v.1 =
      if row.length + 1 ≤ Ident.last then .ok (0 :: (visit rows v).map List.length)
      else .error .overflow := by
  obtain ⟨before, row, after, rfl, place, visited⟩ := visit_split known
  refine ⟨row, by simp, ?_⟩
  have here : (0 :: (before ++ row :: after).map List.length)[v.1.index + 1]? = some row.length := by
    simp [← place]
  have written : write (0 :: (before ++ row :: after).map List.length) (v.1.index + 1)
      (row.length + 1) = .ok (0 :: (visit (before ++ row :: after) v).map List.length) := by
    simp [write, visited, ← place]
  simp only [tally, read, here, add, bind, Except.bind]
  by_cases fits : row.length + 1 ≤ Ident.last
  · rw [if_pos fits, if_pos fits]
    exact written
  · rw [if_neg fits, if_neg fits]

theorem foldlM_tally (known : ∀ v ∈ visits, v.1.index < rows.length) :
    visits.foldlM (fun counts v => tally counts v.1) (0 :: rows.map List.length) =
        .ok (0 :: (visits.foldl visit rows).map List.length) ∨
      visits.foldlM (fun counts v => tally counts v.1) (0 :: rows.map List.length) =
        .error .overflow ∧ Ident.last < rows.flatten.length + visits.length := by
  induction visits generalizing rows with
  | nil => exact .inl rfl
  | cons v rest ih =>
    obtain ⟨first, later⟩ := List.forall_mem_cons.mp known
    obtain ⟨row, listed, tallied⟩ := tally_eq first
    have total := length_flatten_visit first
    rw [List.foldlM_cons, List.foldl_cons, tallied, List.length_cons]
    split
    · rcases @ih (visit rows v) (by rwa [length_visit]) with counted | ⟨stopped, many⟩
      · exact .inl counted
      · exact .inr ⟨stopped, by omega⟩
    · -- the row alone is too long to be counted
      rename_i large
      have : row.length ≤ rows.flatten.length := (List.sublist_flatten_of_mem listed).length_le
      exact .inr ⟨rfl, by omega⟩

/-- What comes first, up to `start`, is summed up already. The sizes are still to be added. -/
theorem foldlM_accumulate (before sizes : List Nat) {start : Nat} (fits : start ≤ Ident.last) :
    (List.range' (before.length + 1) sizes.length).foldlM accumulate (before ++ start :: sizes) =
      if start + sizes.sum ≤ Ident.last then .ok (before ++ sizes.scanl (· + ·) start)
      else .error .overflow := by
  induction sizes generalizing before start with
  | nil => simp [fits, pure, Except.pure]
  | cons size rest ih =>
    have here : (before ++ start :: size :: rest)[before.length + 1]? = some size := by simp
    have last : (before ++ start :: size :: rest)[before.length + 1 - 1]? = some start := by simp
    rw [List.length_cons, List.range'_succ, List.foldlM_cons]
    simp only [accumulate, read, here, last, add, bind, Except.bind]
    by_cases sum : size + start ≤ Ident.last
    · have next := ih (before ++ [start]) sum
      have written : write (before ++ start :: size :: rest) (before.length + 1) (size + start) =
          .ok (before ++ [start] ++ (size + start) :: rest) := by
        simp [write]
      rw [if_pos sum]
      simp only [written]
      rw [List.length_append, List.length_singleton] at next
      rw [next, List.sum_cons, List.scanl_cons, Nat.add_comm size start, Nat.add_assoc]
      simp
    · rw [if_neg sum, if_neg (by rw [List.sum_cons]; omega)]

theorem starts_of_sizes : (List.range' 1 rows.length).foldlM accumulate (0 :: rows.map List.length) =
    if rows.flatten.length ≤ Ident.last then .ok (ofRows rows).starts else .error .overflow := by
  have summed := foldlM_accumulate [] (rows.map List.length) (Nat.zero_le Ident.last)
  rw [List.length_nil, List.length_map, List.nil_append, List.nil_append, Nat.zero_add,
    Nat.zero_add, ← List.length_flatten] at summed
  exact summed

theorem read_last_start : read (ofRows rows).starts rows.length = .ok rows.flatten.length := by
  have place : (ofRows rows).starts[rows.length]? = some rows.flatten.length := by
    rw [ofRows, List.getElem?_partialSums, List.length_map, if_pos (Nat.le_refl _),
      List.take_of_length_le (by rw [List.length_map]), ← List.length_flatten]
  rw [read, place]

theorem parts_of_visit {whole : List (List PathId)}
    (parts : List.Forall₂ (· <+: ·) (visit rows v) whole) : List.Forall₂ (· <+: ·) rows whole := by
  unfold visit at parts
  revert parts
  generalize v.1.index = i
  intro parts
  induction rows generalizing i whole with
  | nil => simpa using parts
  | cons row rest ih =>
    cases i with
    | zero =>
      obtain ⟨all, others, start, later, rfl⟩ := List.forall₂_cons_left_iff.mp parts
      exact .cons ((List.prefix_append ..).trans start) later
    | succ i =>
      obtain ⟨all, others, start, later, rfl⟩ := List.forall₂_cons_left_iff.mp parts
      exact .cons start (ih i later)

theorem parts_visits : List.Forall₂ (· <+: ·) rows (visits.foldl visit rows) := by
  induction visits generalizing rows with
  | nil => exact List.forall₂_refl _
  | cons v rest ih => exact parts_of_visit ih

/-- The entries when the rows are only in part filled in. -/
def padded (rows whole : List (List PathId)) : List PathId :=
  (List.zipWith (fun row all => row ++ List.replicate (all.length - row.length) .invalid)
    rows whole).flatten

structure Filled (whole rows : List (List PathId)) (f : Filling) : Prop where
  entries : f.entries = padded rows whole
  next : ∀ i row, rows[i]? = some row →
    f.next[i]? = some (((whole.map List.length).take i).sum + row.length)

theorem padded_cons {row all : List PathId} {whole : List (List PathId)} :
    padded (row :: rows) (all :: whole) =
      row ++ List.replicate (all.length - row.length) .invalid ++ padded rows whole := rfl

theorem padded_append {before first after last : List (List PathId)}
    (same : before.length = first.length) :
    padded (before ++ after) (first ++ last) = padded before first ++ padded after last := by
  rw [padded, List.zipWith_append same, List.flatten_append]
  rfl

theorem padded_self : padded rows rows = rows.flatten := by
  simp [padded, List.zipWith_self]

theorem padded_nil :
    padded (rows.map fun _ => []) rows = List.replicate rows.flatten.length .invalid := by
  induction rows with
  | nil => rfl
  | cons row rest ih =>
    rw [List.map_cons, padded_cons, ih, List.flatten_cons, List.length_append,
      ← List.replicate_append_replicate]
    rfl

theorem length_padded {whole : List (List PathId)} (parts : List.Forall₂ (· <+: ·) rows whole) :
    (padded rows whole).length = whole.flatten.length := by
  induction parts with
  | nil => rfl
  | cons start _ ih =>
    have := start.length_le
    rw [padded_cons, List.flatten_cons, List.length_append, List.length_append,
      List.length_append, List.length_replicate, ih]
    omega

theorem split_parts {before after whole : List (List PathId)} {row : List PathId}
    (parts : List.Forall₂ (· <+: ·) (before ++ row :: after) whole) : ∃ first all last,
      whole = first ++ all :: last ∧ List.Forall₂ (· <+: ·) before first ∧ row <+: all := by
  induction before generalizing whole with
  | nil =>
    obtain ⟨all, last, start, -, rfl⟩ := List.forall₂_cons_left_iff.mp parts
    exact ⟨[], all, last, rfl, .nil, start⟩
  | cons other before ih =>
    obtain ⟨same, rest, start, others, rfl⟩ := List.forall₂_cons_left_iff.mp parts
    obtain ⟨first, all, last, rfl, firsts, here⟩ := ih others
    exact ⟨same :: first, all, last, rfl, .cons start firsts, here⟩

theorem filled_at_start : Filled rows (rows.map fun _ => [])
    ⟨(ofRows rows).starts, List.replicate rows.flatten.length .invalid⟩ where
  entries := padded_nil.symm
  next i row found := by
    have known : i < rows.length := by
      simpa using (List.getElem?_eq_some_iff.mp found).1
    have empty : [] = row := by simpa [known] using found
    rw [ofRows, List.getElem?_partialSums, List.length_map, if_pos (by omega), ← empty]
    rfl

theorem set_padded {before after first last : List (List PathId)} {row all : List PathId}
    (firsts : List.Forall₂ (· <+: ·) before first) (shorter : row.length < all.length)
    {id : PathId} :
    (padded (before ++ row :: after) (first ++ all :: last)).set (first.flatten.length + row.length)
      id = padded (before ++ (row ++ [id]) :: after) (first ++ all :: last) := by
  obtain ⟨n, gap⟩ : ∃ n, all.length - row.length = n + 1 := ⟨all.length - row.length - 1, by omega⟩
  have less : all.length - (row.length + 1) = n := by omega
  rw [padded_append firsts.length_eq, padded_append firsts.length_eq, padded_cons, padded_cons,
    ← length_padded firsts, List.length_append, List.length_singleton, gap, less]
  simp [List.replicate_succ]

section Entering

variable {before after first last : List (List PathId)} {row all : List PathId} {id : PathId}

theorem sum_sizes_before :
    (((first ++ all :: last).map List.length).take first.length).sum = first.flatten.length := by
  simp [List.length_flatten]

theorem Filled.free (filled : Filled (first ++ all :: last) (before ++ row :: after) f)
    (size : before.length = first.length) :
    f.next[first.length]? = some (first.flatten.length + row.length) := by
  rw [filled.next first.length row (by simp [← size]), sum_sizes_before]

theorem Filled.entered (filled : Filled (first ++ all :: last) (before ++ row :: after) f)
    (firsts : List.Forall₂ (· <+: ·) before first) (shorter : row.length < all.length) :
    Filled (first ++ all :: last) (before ++ (row ++ [id]) :: after) {
      next := f.next.set first.length (first.flatten.length + row.length + 1)
      entries := f.entries.set (first.flatten.length + row.length) id } where
  entries := by rw [filled.entries, set_padded firsts shorter]
  next i other found := by
    have size := firsts.length_eq
    have grown : before ++ (row ++ [id]) :: after =
        (before ++ row :: after).set first.length (row ++ [id]) := by simp [← size]
    rw [grown, List.getElem?_set] at found
    by_cases same : first.length = i
    · subst same
      have known : first.length < (before ++ row :: after).length := by simp [← size]
      rw [if_pos rfl, if_pos known] at found
      cases found
      have inside := (List.getElem?_eq_some_iff.mp (filled.free size)).1
      rw [List.getElem?_set_self inside, sum_sizes_before, List.length_append,
        List.length_singleton, Nat.add_assoc]
    · rw [if_neg same] at found
      rw [List.getElem?_set_ne same]
      exact filled.next i other found

end Entering

theorem enter_eq {whole : List (List PathId)} (room : whole.flatten.length ≤ Ident.last)
    (filled : Filled whole rows f) (known : v.1.index < rows.length)
    (still : List.Forall₂ (· <+: ·) (visit rows v) whole) :
    ∃ g, enter f v = .ok g ∧ Filled whole (visit rows v) g := by
  have parts := parts_of_visit still
  obtain ⟨before, row, after, rfl, place, visited⟩ := visit_split known
  rw [visited] at still ⊢
  obtain ⟨first, all, last, rfl, firsts, here⟩ := split_parts still
  have shorter := here.length_le
  rw [List.length_append, List.length_singleton] at shorter
  have place : v.1.index = first.length := by rw [← place, firsts.length_eq]
  have free := filled.free firsts.length_eq
  have size := length_padded parts
  rw [← filled.entries] at size
  rw [List.flatten_append, List.flatten_cons, List.length_append, List.length_append] at room size
  have inside : first.flatten.length + row.length < f.entries.length := by omega
  have fits : first.flatten.length + row.length + 1 ≤ Ident.last := by omega
  refine ⟨_, ?_, filled.entered firsts shorter⟩
  simp only [enter, read, place, free, write, add, bind, Except.bind, if_pos inside, if_pos fits,
    if_pos (List.getElem?_eq_some_iff.mp free).1]
  rfl

theorem foldlM_enter {whole : List (List PathId)} (room : whole.flatten.length ≤ Ident.last)
    (filled : Filled whole rows f) (known : ∀ v ∈ visits, v.1.index < rows.length)
    (all : visits.foldl visit rows = whole) :
    ∃ g, visits.foldlM enter f = .ok g ∧ g.entries = whole.flatten := by
  induction visits generalizing rows f with
  | nil =>
    refine ⟨f, rfl, ?_⟩
    rw [filled.entries, ← all, List.foldl_nil, padded_self]
  | cons v rest ih =>
    obtain ⟨first, later⟩ := List.forall_mem_cons.mp known
    obtain ⟨g, entered, next⟩ := enter_eq room filled first (all ▸ parts_visits)
    obtain ⟨last, done, entries⟩ := ih next (by rwa [length_visit]) all
    refine ⟨last, ?_, entries⟩
    rw [List.foldlM_cons, entered]
    exact done

theorem ofVisits_eq {n : Nat} (known : ∀ v ∈ visits, v.1.index < n) :
    ofVisits n visits = .ok (ofRows (visits.foldl visit (List.replicate n []))) ∨
      ofVisits n visits = .error .overflow ∧ Ident.last < visits.length := by
  have inside : ∀ v ∈ visits, v.1.index < (List.replicate n ([] : List PathId)).length := by
    simpa using known
  have total : (visits.foldl visit (List.replicate n [])).flatten.length = visits.length := by
    simpa using length_flatten_visits inside
  have size : (visits.foldl visit (List.replicate n [])).length = n := by
    rw [length_visits, List.length_replicate]
  have counting := foldlM_tally inside
  have zeros : 0 :: (List.replicate n ([] : List PathId)).map List.length =
      List.replicate (n + 1) 0 := by simp [List.replicate_succ]
  rw [zeros] at counting
  generalize all : visits.foldl visit (List.replicate n []) = rows at total size counting ⊢
  unfold ofVisits
  rcases counting with counted | ⟨stopped, many⟩
  · have summed := @starts_of_sizes rows
    have last := @read_last_start rows
    rw [size] at summed last
    rw [counted]
    by_cases fits : rows.flatten.length ≤ Ident.last
    · rw [if_pos fits] at summed
      have start : Filled rows (List.replicate n [])
          ⟨(ofRows rows).starts, List.replicate rows.flatten.length .invalid⟩ := by
        rw [← size, ← List.map_const']
        exact filled_at_start
      obtain ⟨filled, done, entries⟩ := foldlM_enter fits start inside all
      refine .inl ?_
      simp only [bind, Except.bind, summed, last, done, entries]
      rfl
    · rw [if_neg fits] at summed
      refine .inr ⟨?_, by omega⟩
      simp only [bind, Except.bind, summed]
  · rw [stopped]
    refine .inr ⟨rfl, ?_⟩
    simpa using many

end PathIndex

namespace Layout

def visits (l : Layout) : List (PointId × PathId) :=
  l.paths.zipIdx.flatMap fun (p, i) => p.ends.map fun point => (point, ⟨i⟩)

/-- The checks and passes in their order. That the points can be put in order shows last. -/
def assemble (l : Layout) (spatial : SpatialIndex) : Except Halt PathIndex :=
  match l.draftFault? with
  | some fault => .error (.refused fault)
  | none => do
    let index ← PathIndex.ofVisits l.points.length l.visits
    match l.orderFault? spatial with
    | some fault => .error (.refused fault)
    | none => return index

variable {l : Layout} {spatial : SpatialIndex}

theorem enterPath_eq {rows : List (List PathId)} {p : Path} {id : PathId} :
    enterPath rows p id = (p.ends.map (·, id)).foldl PathIndex.visit rows := by
  unfold enterPath Path.ends
  split <;> rfl

theorem incidence_eq_visits :
    l.incidence = l.visits.foldl PathIndex.visit (List.replicate l.points.length []) := by
  simp only [incidence, visits, List.foldl_flatMap, enterPath_eq, List.map_const']

theorem length_visits_le : l.visits.length ≤ 2 * l.paths.length := by
  have most : ∀ n ∈ l.paths.zipIdx.map fun e => (e.1.ends.map fun point => (point, e.2)).length,
      n ≤ 2 := by
    intro n listed
    obtain ⟨⟨p, i⟩, -, rfl⟩ := List.mem_map.mp listed
    unfold Path.ends
    split <;> simp
  rw [visits, List.length_flatMap, Nat.mul_comm]
  simpa using List.sum_le_card_nsmul _ 2 most

theorem WellFormed.visits_known (wellFormed : l.WellFormed) :
    ∀ v ∈ l.visits, v.1.index < l.points.length := by
  intro v listed
  obtain ⟨⟨p, i⟩, member, entered⟩ := List.mem_flatMap.mp listed
  obtain ⟨point, isEnd, rfl⟩ := List.mem_map.mp entered
  have ends := wellFormed.ends p (List.fst_mem_of_mem_zipIdx member)
  have known : p.source.index < l.points.length ∧ p.destination.index < l.points.length := by
    simpa [defines] using ends
  unfold Path.ends at isEnd
  split at isEnd <;> simp at isEnd
  · exact isEnd ▸ known.1
  · rcases isEnd with rfl | rfl
    · exact known.1
    · exact known.2

theorem assemble_eq (l : Layout) (spatial : SpatialIndex) :
    l.assemble spatial =
        ((Plant.ofLayout? l spatial).map fun p => .ofRows p.incidence).mapError .refused ∨
      l.assemble spatial = .error .overflow ∧ l.WellFormed ∧ 2 ^ 31 ≤ l.paths.length := by
  have built : ((Plant.ofLayout? l spatial).map fun p => .ofRows p.incidence).mapError .refused =
      match l.fault? spatial with
      | some fault => .error (Halt.refused fault)
      | none => .ok (PathIndex.ofRows l.incidence) := by
    cases h : Plant.ofLayout? l spatial with
    | error fault =>
      rw [Plant.ofLayout?_eq_error_iff.mp h]
      rfl
    | ok p =>
      obtain ⟨rfl, rfl⟩ := Plant.ofLayout?_eq_ok_iff.mp h
      rw [p.sound, ← p.incidence_eq]
      rfl
  rw [built, fault?_eq]
  unfold assemble
  cases draft : l.draftFault? with
  | some fault => exact .inl rfl
  | none =>
    have wellFormed := draftFault?_eq_none_iff.mp draft
    rcases PathIndex.ofVisits_eq wellFormed.visits_known with assembled | ⟨stopped, many⟩
    · rw [assembled, ← incidence_eq_visits]
      left
      cases l.orderFault? spatial <;> rfl
    · refine .inr ⟨?_, wellFormed, ?_⟩
      · rw [stopped]
        rfl
      · have := length_visits_le (l := l)
        have : Ident.last = 2 ^ 32 - 1 := rfl
        omega

example : assemble (drawAll {} [.point "A" ⟨0, 0⟩, .point "B" ⟨1000, 0⟩, .path "Loop" ⟨0⟩ ⟨0⟩ 500,
    .path "B-->A" ⟨1⟩ ⟨0⟩ 1000]) .usual = .ok ⟨[0, 2, 3], [⟨0⟩, ⟨1⟩, ⟨1⟩]⟩ := by decide

end Layout

namespace Plant

/-- What is drawn on a plant makes a plant if it is well-formed and its spatial index can keep the
    points, as it can if their coordinates are numbers, and not otherwise; no pass leaves its lists.
    Then each point has the paths that begin or end there, and each resource the blocks that it is a
    member of, once and in the order of their numbers. -/
theorem built_iff_wellFormed (p : Plant) (strokes : List Stroke) :
    let l := p.layout.drawAll strokes
    ((∃ q, ofLayout? l p.spatial = .ok q) ↔ l.WellFormed ∧ l.Sortable p.spatial) ∧
      (ofLayout? l p.spatial = .error .unorderedPoints ↔ l.WellFormed ∧ ¬ l.Sortable p.spatial) ∧
      ((∀ q ∈ l.points, q.position.isNumber = true) → l.Sortable p.spatial) ∧
      (∀ size, l.Sortable (.scanning size) ↔
        l.points.length ≤ size ∨ ∀ q ∈ l.points, q.position.isNumber = true) ∧
      l.assemble p.spatial ≠ .error .outOfRange ∧
      (l.assemble p.spatial =
          ((ofLayout? l p.spatial).map fun q => .ofRows q.incidence).mapError .refused ∨
        l.assemble p.spatial = .error .overflow ∧ l.WellFormed ∧ 2 ^ 31 ≤ l.paths.length) ∧
      ∀ q, ofLayout? l p.spatial = .ok q → q.layout = l ∧
        (∀ point, q.defines (.point point) = true → ∃ row, q.incident? point = some row ∧
          (PathIndex.ofRows q.incidence).row? point = some row ∧
          row.Pairwise (·.index < ·.index) ∧
          ∀ id, id ∈ row ↔
            ∃ path, q.path? id = some path ∧ (path.source = point ∨ path.destination = point)) ∧
        ∀ r, (q.blocksListing r).Pairwise (·.index < ·.index) ∧
          ∀ id, id ∈ q.blocksListing r ↔ ∃ block, q.block? id = some block ∧ r ∈ block.members := by
  intro l
  have assembled := l.assemble_eq p.spatial
  refine ⟨?_, ?_, Layout.sortable_of_isNumber, fun size => Layout.sortable_scanning_iff, ?_,
    assembled, fun q built => ⟨(ofLayout?_eq_ok_iff.mp built).1, ?_, fun r => ?_⟩⟩
  · rw [exists_ofLayout?_iff, Layout.fault?_eq_none_iff]
  · rw [ofLayout?_eq_error_iff, Layout.fault?_eq_unordered_iff]
  · rcases assembled with assembled | ⟨stopped, -⟩
    · rw [assembled]
      cases ofLayout? l p.spatial <;> simp [Except.map, Except.mapError]
    · rw [stopped]
      simp
  · intro point known
    have inside : point.index < q.pointCount := of_decide_eq_true known
    refine ⟨_, incident?_eq inside, ?_, numbersOf_ascending, fun id => ?_⟩
    · rw [PathIndex.row?_ofRows]
      exact incident?_eq inside
    · rw [mem_numbersOf]
      simp only [Path.touches, Bool.or_eq_true, decide_eq_true_eq]
      rfl
  · rw [blocksListing_eq_numbersOf]
    refine ⟨numbersOf_ascending, fun id => ?_⟩
    rw [mem_numbersOf]
    simp only [decide_eq_true_eq]
    rfl

def lostPoint : List Stroke :=
  ["A", "B", "C", "D", "E", "F"].map (.point · ⟨0, 0⟩) ++ [.point "G" ⟨0 / 0, 0⟩]

/-- Nothing is wrong with the names, and still no plant is made of it. -/
theorem not_built_of_lostPoint : ¬ ∀ strokes, (Layout.drawAll {} strokes).WellFormed →
    ∃ q, ofLayout? (Layout.drawAll {} strokes) = .ok q := by
  intro all
  have wellFormed : (Layout.drawAll {} lostPoint).WellFormed := by
    rw [← Layout.draftFault?_eq_none_iff]
    decide
  obtain ⟨q, built⟩ := all lostPoint wellFormed
  have stopped : (Layout.drawAll {} lostPoint).fault? .usual = some .unorderedPoints := by
    decide
  cases built.symm.trans (ofLayout?_eq_error_iff.mpr stopped)

end Plant

end TrafficControl
