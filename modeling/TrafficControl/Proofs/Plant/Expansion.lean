import Mathlib
import TrafficControl.Proofs.Plant.Closure

namespace TrafficControl

namespace Plant

variable {p : Plant} {request request' expanded expanded' : ResourceSet} {r : Resource} {b : BlockId}

theorem unseen_nil (weight : Block → Nat) :
    p.unseen weight [] = (p.layout.blocks.map weight).sum := by
  have numbered (next : Nat) : (p.layout.blocks.zipIdx next).foldr
      (fun e rest => weight e.1 + rest) 0 = (p.layout.blocks.map weight).sum := by
    induction p.layout.blocks generalizing next with
    | nil => rfl
    | cons b rest ih => rw [List.zipIdx_cons, List.foldr_cons, ih, List.map_cons, List.sum_cons]
  simp only [unseen, List.not_mem_nil, if_false, numbered]

/-- The search for members is over after so many rounds. Each round deals with the first resource
    that is still to do. -/
inductive Expands (p : Plant) :
    Nat → List Resource → List BlockId → ResourceSet → Except Resource ResourceSet → Prop
  | done {seen found} : Expands p 0 [] seen found (.ok found)
  | missing {b rest seen found} (absent : p.block? b = none) :
      Expands p 1 (.block b :: rest) seen found (.error (.block b))
  | again {b block rest seen found rounds result} (present : p.block? b = some block)
      (old : b ∈ seen) (later : Expands p rounds rest seen found result) :
      Expands p (rounds + 1) (.block b :: rest) seen found result
  | opened {b block rest seen found rounds result} (present : p.block? b = some block)
      (fresh : b ∉ seen)
      (later : Expands p rounds (block.members.toList.reverse ++ rest) (b :: seen) found result) :
      Expands p (rounds + 1) (.block b :: rest) seen found result
  | taken {r rest seen found rounds result} (elementary : r.isBlock = false)
      (defined : p.defines r = true) (later : Expands p rounds rest seen (found.insert r) result) :
      Expands p (rounds + 1) (r :: rest) seen found result
  | unknown {r rest seen found} (elementary : r.isBlock = false) (undefined : p.defines r = false) :
      Expands p 1 (r :: rest) seen found (.error r)

inductive Encircles (p : Plant) : Nat → List Resource → List BlockId → List BlockId → Prop
  | done {found} : Encircles p 0 [] found found
  | more {r rest found rounds result}
      (later : Encircles p rounds
        (((p.blocksListing r).filter (· ∉ found)).reverse.map .block ++ rest)
        (found ++ (p.blocksListing r).filter (· ∉ found)) result) :
      Encircles p (rounds + 1) (r :: rest) found result

theorem isBlock_eq_false (elementary : ∀ b, r ≠ .block b) : r.isBlock = false := by
  cases r with
  | block b => exact absurd rfl (elementary b)
  | point => rfl
  | path => rfl

theorem expands_expandFrom (work : List Resource) (seen : List BlockId) (found : ResourceSet) :
    ∃ rounds, rounds ≤ work.length + p.unseen (·.members.size) seen ∧
      p.Expands rounds work seen found (p.expandFrom work seen found) := by
  fun_induction expandFrom p work seen found with
  | case1 seen found => exact ⟨0, Nat.zero_le _, .done⟩
  | case2 seen found b rest absent => exact ⟨1, by simp; omega, .missing absent⟩
  | case3 seen found b rest block present old ih =>
    obtain ⟨rounds, few, later⟩ := ih
    exact ⟨rounds + 1, by simp only [List.length_cons]; omega, .again present old later⟩
  | case4 seen found b rest block present fresh ih =>
    obtain ⟨rounds, few, later⟩ := ih
    -- the members come in addition, and are not counted as unseen any more
    have lighter := unseen_cons (·.members.size) present fresh
    have size : block.members.toList.length = block.members.size := rfl
    simp only [List.length_append, List.length_reverse, size] at few
    exact ⟨rounds + 1, by simp only [List.length_cons]; omega, .opened present fresh later⟩
  | case5 seen found r rest elementary defined ih =>
    obtain ⟨rounds, few, later⟩ := ih
    exact ⟨rounds + 1, by simp only [List.length_cons]; omega,
      .taken (isBlock_eq_false elementary) defined later⟩
  | case6 seen found r rest elementary undefined =>
    exact ⟨1, by simp; omega,
      .unknown (isBlock_eq_false elementary) (by simpa using undefined)⟩

theorem encircles_enclosingFrom (work : List Resource) (found : List BlockId) :
    ∃ rounds, rounds ≤ work.length + p.unseen (fun _ => 1) found ∧
      p.Encircles rounds work found (p.enclosingFrom work found) := by
  fun_induction enclosingFrom p work found with
  | case1 found => exact ⟨0, Nat.zero_le _, .done⟩
  | case2 found r rest fresh ih =>
    obtain ⟨rounds, few, later⟩ := ih
    have distinct : fresh.Nodup := nodup_blocksListing.filter _
    have lighter := unseen_append (fun _ => 1) distinct
      (fun b member => by simpa using (List.mem_filter.mp member).2)
      (fun b member => by
        obtain ⟨block, present, -⟩ := mem_blocksListing.mp (List.mem_filter.mp member).1
        exact ⟨block, present, Nat.le_refl 1⟩)
    simp only [List.length_append, List.length_map, List.length_reverse] at few
    exact ⟨rounds + 1, by simp only [List.length_cons]; omega, .more later⟩

theorem expand_eq_ok_iff :
    p.expand request = .ok expanded ↔ (∀ r, r ∈ request → p.defines r = true) ∧
      ∀ r, r ∈ expanded ↔ r.isBlock = false ∧ ∃ q, q ∈ request ∧ p.Includes q r := by
  constructor
  · intro h
    exact ⟨expand_ok_iff.mp ⟨expanded, h⟩, fun r => mem_expand h⟩
  · intro h
    obtain ⟨defined, members⟩ := h
    obtain ⟨result, h⟩ := expand_ok_iff.mpr defined
    have same : result = expanded := OrderedSet.ext fun r => (mem_expand h).trans (members r).symm
    rw [h, same]

theorem expand_elements (defined : ∀ r, r ∈ request → p.defines r = true)
    (elements : ∀ r, r ∈ request → r.isBlock = false) : p.expand request = .ok request := by
  refine expand_eq_ok_iff.mpr ⟨defined, fun r => ⟨fun member => ?_, fun inside => ?_⟩⟩
  · exact ⟨elements r member, r, member, .self r⟩
  · obtain ⟨-, q, member, inner⟩ := inside
    exact includes_of_not_block (elements q member) inner ▸ member

theorem expand_idem (h : p.expand request = .ok expanded) : p.expand expanded = .ok expanded := by
  obtain ⟨defined, members⟩ := expand_eq_ok_iff.mp h
  refine expand_elements (fun r member => ?_) fun r member => ((members r).mp member).1
  obtain ⟨-, q, asked, inner⟩ := (members r).mp member
  exact defines_of_includes (defined q asked) inner

theorem expand_mono (h : p.expand request' = .ok expanded')
    (fewer : ∀ r, r ∈ request → r ∈ request') :
    ∃ expanded, p.expand request = .ok expanded ∧ ∀ r, r ∈ expanded → r ∈ expanded' := by
  obtain ⟨defined, members⟩ := expand_eq_ok_iff.mp h
  obtain ⟨expanded, expansion⟩ := expand_ok_iff.mpr fun r asked => defined r (fewer r asked)
  refine ⟨expanded, expansion, fun r member => (members r).mpr ?_⟩
  obtain ⟨elementary, q, asked, inner⟩ := (mem_expand expansion).mp member
  exact ⟨elementary, q, fewer q asked, inner⟩

theorem expand_union (h : p.expand request = .ok expanded)
    (h' : p.expand request' = .ok expanded') :
    p.expand (request.union request') = .ok (expanded.union expanded') := by
  obtain ⟨defined, members⟩ := expand_eq_ok_iff.mp h
  obtain ⟨defined', members'⟩ := expand_eq_ok_iff.mp h'
  refine expand_eq_ok_iff.mpr ⟨fun r asked => ?_, fun r => ?_⟩
  · exact (OrderedSet.mem_union.mp asked).elim (defined r) (defined' r)
  · simp only [OrderedSet.mem_union, members, members', ← and_or_left, or_and_right, exists_or]

theorem mem_expand_block (elementary : r.isBlock = false) :
    (∃ zone, p.expand (.ofList [.block b]) = .ok zone ∧ r ∈ zone) ↔ b ∈ p.enclosing r := by
  have only (q : Resource) : q ∈ OrderedSet.ofList [Resource.block b] ↔ q = .block b := by
    rw [OrderedSet.mem_ofList, List.mem_singleton]
  rw [mem_enclosing, encloses_iff_includes elementary]
  constructor
  · intro h
    obtain ⟨zone, expansion, member⟩ := h
    obtain ⟨-, q, asked, inner⟩ := (mem_expand expansion).mp member
    exact (only q).mp asked ▸ inner
  · intro inner
    have defined : p.defines (.block b) = true := by
      cases inner with
      | self => cases elementary
      | member found => exact defines_block_iff.mpr ⟨_, found⟩
    obtain ⟨zone, expansion⟩ := expand_ok_iff.mpr fun q asked => (only q).mp asked ▸ defined
    exact ⟨zone, expansion, (mem_expand expansion).mpr ⟨elementary, _, (only _).mpr rfl, inner⟩⟩

/-- Both searches end, however blocks overlap, contain each other or themselves. What a set comes to
    are the points and paths that belong to it, and it comes to something exactly if the plant
    defines all that it names. A point or path is in what a block comes to exactly if the search
    from that point or path finds the block. -/
theorem expand_closes (p : Plant) :
    (∀ request, ∃ rounds,
        rounds ≤ request.size + (p.layout.blocks.map (·.members.size)).sum ∧
        p.Expands rounds request.toList.reverse [] ∅ (p.expand request)) ∧
      (∀ r, ∃ rounds, rounds ≤ p.blockCount + 1 ∧
        p.Encircles rounds [r] [] (p.enclosing r)) ∧
      (∀ request, (∃ expanded, p.expand request = .ok expanded) ↔
        ∀ r, r ∈ request → p.defines r = true) ∧
      (∀ request expanded, p.expand request = .ok expanded →
        (∀ r, r ∈ expanded ↔ r.isBlock = false ∧ ∃ q, q ∈ request ∧ p.Includes q r) ∧
          p.expand expanded = .ok expanded) ∧
      (∀ request request' expanded', p.expand request' = .ok expanded' →
        (∀ r, r ∈ request → r ∈ request') →
          ∃ expanded, p.expand request = .ok expanded ∧ ∀ r, r ∈ expanded → r ∈ expanded') ∧
      (∀ request request' expanded expanded', p.expand request = .ok expanded →
        p.expand request' = .ok expanded' →
          p.expand (request.union request') = .ok (expanded.union expanded')) ∧
      ∀ r b, r.isBlock = false →
        ((∃ zone, p.expand (.ofList [.block b]) = .ok zone ∧ r ∈ zone) ↔ b ∈ p.enclosing r) := by
  refine ⟨fun request => ?_, fun r => ?_, fun request => expand_ok_iff,
    fun request expanded h => ⟨fun r => mem_expand h, expand_idem h⟩,
    fun request request' expanded' => expand_mono,
    fun request request' expanded expanded' => expand_union,
    fun r b => mem_expand_block⟩
  · obtain ⟨rounds, few, ends⟩ := p.expands_expandFrom request.toList.reverse [] ∅
    rw [unseen_nil, List.length_reverse] at few
    exact ⟨rounds, few, ends⟩
  · obtain ⟨rounds, few, ends⟩ := p.encircles_enclosingFrom [r] []
    rw [unseen_nil, List.map_const', List.sum_replicate_nat, Nat.mul_one, List.length_singleton] at few
    exact ⟨rounds, by rw [blockCount]; omega, ends⟩

def roundabout : Plant where
  layout := {
    points := [{ name := "A", position := ⟨0, 0⟩ }, { name := "B", position := ⟨1000, 0⟩ }]
    paths := [{ name := "A-->B", source := ⟨0⟩, destination := ⟨1⟩, length := 1000 }]
    blocks := [{ name := "north", members := .ofList [.point ⟨0⟩, .block ⟨1⟩] },
      { name := "south", members := .ofList [.path ⟨0⟩, .block ⟨0⟩] },
      { name := "all", members := .ofList [.block ⟨1⟩, .block ⟨2⟩] }] }
  sound := by decide
  incidence := [[⟨0⟩], [⟨0⟩]]
  incidence_eq := by decide
  memberships := .ofList [(.point ⟨0⟩, [⟨0⟩]), (.path ⟨0⟩, [⟨1⟩]), (.block ⟨0⟩, [⟨1⟩]),
    (.block ⟨1⟩, [⟨0⟩, ⟨2⟩]), (.block ⟨2⟩, [⟨2⟩])]
  memberships_eq := by decide

theorem expand_closes_roundabout :
    let zone : ResourceSet := .ofList [.point ⟨0⟩, .path ⟨0⟩]
    roundabout.expand (.ofList [.block ⟨2⟩]) = .ok zone ∧ roundabout.expand zone = .ok zone ∧
      roundabout.expand ((OrderedSet.ofList [.block ⟨2⟩]).union (.ofList [.point ⟨1⟩])) =
        .ok (zone.union (.ofList [.point ⟨1⟩])) ∧
      ⟨2⟩ ∈ roundabout.enclosing (.path ⟨0⟩) ∧
      ¬ ∃ expanded, roundabout.expand (.ofList [.point ⟨1⟩, .block ⟨3⟩]) = .ok expanded := by
  intro zone
  obtain ⟨-, -, ends, closed, -, union, around⟩ := expand_closes roundabout
  have expansion : roundabout.expand (.ofList [.block ⟨2⟩]) = .ok zone := by cbv
  refine ⟨expansion, (closed _ _ expansion).2, union _ _ _ _ expansion (by cbv), ?_, ?_⟩
  · exact (around _ _ rfl).mp ⟨zone, expansion, by decide_cbv⟩
  · rw [ends]
    intro defined
    exact absurd (defined (.block ⟨3⟩) (by decide_cbv)) (by decide_cbv)

end Plant

end TrafficControl
