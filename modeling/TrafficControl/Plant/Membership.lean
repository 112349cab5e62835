import TrafficControl.Plant.Basic

namespace TrafficControl

namespace Layout

theorem getD_enterMembers {l : List Resource} (distinct : l.Nodup) (id : BlockId)
    {rows : Table Resource (List BlockId)} {r : Resource} :
    ((l.foldl (fun rows r => rows.insert r ((rows.get? r).getD [] ++ [id])) rows).get? r).getD [] =
      (rows.get? r).getD [] ++ if r ∈ l then [id] else [] := by
  induction l generalizing rows with
  | nil => simp
  | cons s rest ih =>
    obtain ⟨fresh, distinct⟩ := List.nodup_cons.mp distinct
    rw [List.foldl_cons, ih distinct, Table.get?_insert]
    by_cases same : r = s
    · subst same
      simp [fresh]
    · simp [same]

theorem getD_enterBlock {rows : Table Resource (List BlockId)} {b : Block} {id : BlockId}
    {r : Resource} :
    ((enterBlock rows b id).get? r).getD [] =
      (rows.get? r).getD [] ++ if r ∈ b.members then [id] else [] := by
  refine getD_enterMembers (b.members.ascending.imp fun less same => ?_) id
  subst same
  simp at less

theorem getD_memberships_from {blocks : List Block} {next : Nat}
    {rows : Table Resource (List BlockId)} {r : Resource} :
    (((blocks.zipIdx next).foldl (fun rows (b, i) => enterBlock rows b ⟨i⟩) rows).get? r).getD [] =
      (rows.get? r).getD [] ++
        ((blocks.zipIdx next).filter fun (b, _) => r ∈ b.members).map fun (_, i) => ⟨i⟩ := by
  induction blocks generalizing next rows with
  | nil => simp
  | cons b rest ih =>
    rw [List.zipIdx_cons, List.foldl_cons, ih, getD_enterBlock]
    by_cases member : r ∈ b.members <;> simp [member]

end Layout

namespace Plant

theorem blocksListing_eq {p : Plant} {r : Resource} :
    p.blocksListing r =
      ((p.layout.blocks.zipIdx.filter fun (b, _) => r ∈ b.members).map fun (_, i) => ⟨i⟩) := by
  rw [blocksListing, p.memberships_eq, Layout.memberships, Layout.getD_memberships_from]
  rfl

theorem mem_blocksListing {p : Plant} {r : Resource} {b : BlockId} :
    b ∈ p.blocksListing r ↔ ∃ block, p.block? b = some block ∧ r ∈ block.members := by
  simp only [blocksListing_eq, List.mem_map, List.mem_filter, List.mem_zipIdx_iff_getElem?,
    decide_eq_true_eq, Prod.exists, block?]
  constructor
  · rintro ⟨block, i, ⟨found, member⟩, rfl⟩
    exact ⟨block, found, member⟩
  · rintro ⟨block, found, member⟩
    exact ⟨block, b.index, ⟨found, member⟩, rfl⟩

theorem nodup_blocksListing {p : Plant} {r : Resource} : (p.blocksListing r).Nodup := by
  rw [blocksListing_eq]
  have distinct : (p.layout.blocks.zipIdx.map (·.2)).Nodup := by
    rw [List.zipIdx_map_snd]
    exact List.nodup_range'
  have kept := (List.filter_sublist (p := fun e : Block × Nat => decide (r ∈ e.1.members))).map
    (·.2) |>.nodup distinct
  rw [List.Nodup, List.pairwise_map] at kept ⊢
  exact kept.imp fun apart same => apart (congrArg Ident.index same)

def unseen (p : Plant) (weight : Block → Nat) (seen : List BlockId) : Nat :=
  p.layout.blocks.zipIdx.foldr
    (fun (b, i) rest => (if (⟨i⟩ : BlockId) ∈ seen then 0 else weight b) + rest) 0

theorem unseen_congr {p : Plant} {weight : Block → Nat} {seen seen' : List BlockId}
    (same : ∀ b, b ∈ seen ↔ b ∈ seen') : p.unseen weight seen = p.unseen weight seen' := by
  simp only [unseen, same]

theorem unseen_from_cons (blocks : List Block) (weight : Block → Nat) (next : Nat)
    {seen : List BlockId} {b : BlockId} (fresh : b ∉ seen) :
    (blocks.zipIdx next).foldr (fun (c, i) rest =>
        (if (⟨i⟩ : BlockId) ∈ b :: seen then 0 else weight c) + rest) 0 +
      (if next ≤ b.index then (blocks[b.index - next]?).elim 0 weight else 0) =
    (blocks.zipIdx next).foldr (fun (c, i) rest =>
        (if (⟨i⟩ : BlockId) ∈ seen then 0 else weight c) + rest) 0 := by
  induction blocks generalizing next with
  | nil => simp
  | cons c rest ih =>
    simp only [List.zipIdx_cons, List.foldr_cons]
    rw [← @ih (next + 1)]
    generalize (List.foldr _ 0 (rest.zipIdx (next + 1)) : Nat) = total
    by_cases here : b.index = next
    · have same : (⟨next⟩ : BlockId) = b := by rw [← here]
      have passed : ¬ next + 1 ≤ b.index := by omega
      simp only [same, List.mem_cons, true_or, if_true, fresh, if_false, here, Nat.le_refl,
        Nat.sub_self, List.getElem?_cons_zero, Option.elim_some, Nat.not_succ_le_self]
      omega
    · have other : (⟨next⟩ : BlockId) ≠ b := fun same => here (congrArg Ident.index same).symm
      simp only [List.mem_cons, other, false_or]
      by_cases later : next ≤ b.index
      · obtain ⟨k, shift⟩ : ∃ k, b.index - next = k + 1 := ⟨b.index - next - 1, by omega⟩
        have less : next + 1 ≤ b.index := by omega
        have step : b.index - (next + 1) = k := by omega
        simp only [later, if_true, shift, List.getElem?_cons_succ, less, step]
        omega
      · have less : ¬ next + 1 ≤ b.index := by omega
        simp only [later, if_false, less]
        omega

theorem unseen_cons {p : Plant} (weight : Block → Nat) {seen : List BlockId} {b : BlockId}
    {block : Block} (found : p.block? b = some block) (fresh : b ∉ seen) :
    p.unseen weight (b :: seen) + weight block = p.unseen weight seen := by
  have := unseen_from_cons p.layout.blocks weight 0 fresh
  simp only [Nat.zero_le, if_true, Nat.sub_zero] at this
  rw [block?] at found
  rw [found] at this
  exact this

theorem unseen_append {p : Plant} (weight : Block → Nat) {seen fresh : List BlockId}
    (distinct : fresh.Nodup) (apart : ∀ b ∈ fresh, b ∉ seen)
    (defined : ∀ b ∈ fresh, ∃ block, p.block? b = some block ∧ 1 ≤ weight block) :
    p.unseen weight (seen ++ fresh) + fresh.length ≤ p.unseen weight seen := by
  induction fresh generalizing seen with
  | nil => simp
  | cons b rest ih =>
    have ⟨new, distinct⟩ := List.nodup_cons.mp distinct
    obtain ⟨block, found, heavy⟩ := defined b (by simp)
    have first := unseen_cons weight found (apart b (by simp))
    have := @ih (b :: seen) distinct
      (fun c member => by
        simp only [List.mem_cons, not_or]
        exact ⟨fun same => new (same ▸ member), apart c (List.mem_cons_of_mem _ member)⟩)
      (fun c member => defined c (List.mem_cons_of_mem _ member))
    have shuffle : p.unseen weight (seen ++ b :: rest) = p.unseen weight (b :: seen ++ rest) :=
      unseen_congr fun c => by simp only [List.mem_append, List.mem_cons]; grind
    rw [shuffle]
    simp only [List.length_cons]
    omega

/-- Goes on with the resources still to do, the first one first, and with the members of a block
    when the block is seen for the first time. -/
def expandFrom (p : Plant) (work : List Resource) (seen : List BlockId) (found : ResourceSet) :
    Except Resource ResourceSet :=
  match work with
  | [] => .ok found
  | .block b :: rest =>
    match _present : p.block? b with
    | none => .error (.block b)
    | some block =>
      if b ∈ seen then p.expandFrom rest seen found
      else p.expandFrom (block.members.toList.reverse ++ rest) (b :: seen) found
  | r :: rest => if p.defines r then p.expandFrom rest seen (found.insert r) else .error r
termination_by work.length + p.unseen (·.members.size) seen
decreasing_by
  · simp
  · have lighter := unseen_cons (·.members.size) _present ‹_›
    have size : block.members.toList.length = block.members.size := rfl
    simp only [List.length_append, List.length_reverse, List.length_cons, size]
    omega
  · simp

/-- The points and paths that a request comes to when its blocks are taken for their members and
    the members of those. Fails on a resource that the plant does not define. -/
def expand (p : Plant) (request : ResourceSet) : Except Resource ResourceSet :=
  p.expandFrom request.toList.reverse [] ∅

def zone (p : Plant) (b : BlockId) : ResourceSet :=
  match p.block? b with
  | none => ∅
  | some block =>
    match p.expand block.members with
    | .ok members => members
    | .error _ => ∅

def enclosingFrom (p : Plant) (work : List Resource) (found : List BlockId) : List BlockId :=
  match work with
  | [] => found
  | r :: rest =>
    let fresh := (p.blocksListing r).filter (· ∉ found)
    p.enclosingFrom (fresh.reverse.map .block ++ rest) (found ++ fresh)
termination_by work.length + p.unseen (fun _ => 1) found
decreasing_by
  have distinct : ((p.blocksListing r).filter (· ∉ found)).Nodup := nodup_blocksListing.filter _
  have := unseen_append (fun _ => 1) distinct
    (fun b member => by simpa using (List.mem_filter.mp member).2)
    (fun b member => by
      obtain ⟨block, present, -⟩ := mem_blocksListing.mp (List.mem_filter.mp member).1
      exact ⟨block, present, Nat.le_refl 1⟩)
  simp only [List.length_append, List.length_map, List.length_reverse, List.length_cons]
  omega

def enclosing (p : Plant) (r : Resource) : List BlockId := p.enclosingFrom [r] []

end Plant

end TrafficControl
