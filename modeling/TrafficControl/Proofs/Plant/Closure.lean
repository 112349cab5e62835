import TrafficControl.Plant.Membership
import TrafficControl.Plant.Versions

namespace TrafficControl

def Resource.isBlock : Resource → Bool
  | .block _ => true
  | _ => false

namespace Plant

/-- The second resource is the first one, or belongs to it directly or through nested blocks. -/
inductive Includes (p : Plant) : Resource → Resource → Prop
  | self (r : Resource) : Includes p r r
  | member {b : BlockId} {block : Block} {m r : Resource} (found : p.block? b = some block)
      (listed : m ∈ block.members) (inner : Includes p m r) : Includes p (.block b) r

/-- The resource belongs to the block, directly or through nested blocks. -/
def Encloses (p : Plant) (b : BlockId) (r : Resource) : Prop :=
  ∃ block, p.block? b = some block ∧ ∃ m, m ∈ block.members ∧ p.Includes m r

theorem includes_of_not_block {p : Plant} {q r : Resource} (elementary : q.isBlock = false)
    (h : p.Includes q r) : r = q := by
  cases h with
  | self => rfl
  | member => cases elementary

theorem includes_block_iff {p : Plant} {b : BlockId} {r : Resource} :
    p.Includes (.block b) r ↔ r = .block b ∨ p.Encloses b r := by
  constructor
  · intro h
    cases h with
    | self => exact .inl rfl
    | member found listed inner => exact .inr ⟨_, found, _, listed, inner⟩
  · intro h
    rcases h with rfl | ⟨block, found, m, listed, inner⟩
    · exact .self _
    · exact .member found listed inner

theorem encloses_iff_includes {p : Plant} {b : BlockId} {r : Resource}
    (elementary : r.isBlock = false) : p.Encloses b r ↔ p.Includes (.block b) r := by
  rw [includes_block_iff]
  constructor
  · exact .inr
  · intro h
    rcases h with rfl | h
    · cases elementary
    · exact h

theorem Includes.trans {p : Plant} {q r s : Resource} (first : p.Includes q r)
    (second : p.Includes r s) : p.Includes q s := by
  induction first with
  | self => exact second
  | member found listed _ ih => exact .member found listed (ih second)

theorem defines_member {p : Plant} {b : BlockId} {block : Block} {m : Resource}
    (found : p.block? b = some block) (listed : m ∈ block.members) : p.defines m = true := by
  have sound := p.sound
  have member : block ∈ p.layout.blocks := List.mem_of_getElem? found
  simp only [Layout.fault?] at sound
  split at sound
  · cases sound
  · split at sound
    · cases sound
    · split at sound
      · cases sound
      · rename_i none
        have clean := List.findSome?_eq_none_iff.mp none block member
        simp only [Layout.blockFault] at clean
        split at clean
        · cases clean
        · have all := List.find?_eq_none.mp (Option.map_eq_none_iff.mp clean) m listed
          simpa [defines] using all

theorem defines_of_includes {p : Plant} {q r : Resource} (defined : p.defines q = true)
    (h : p.Includes q r) : p.defines r = true := by
  induction h with
  | self => exact defined
  | member found listed _ ih => exact ih (defines_member found listed)

theorem defines_block_iff {p : Plant} {b : BlockId} :
    p.defines (.block b) = true ↔ ∃ block, p.block? b = some block := by
  rw [← Option.isSome_iff_exists, block?, isSome_getElem?]
  exact decide_eq_true_iff

theorem expandFrom_sound {p : Plant} {work : List Resource} {seen : List BlockId}
    {found expanded : ResourceSet} (h : p.expandFrom work seen found = .ok expanded)
    {r : Resource} (member : r ∈ expanded) :
    r ∈ found ∨ r.isBlock = false ∧ ∃ q, q ∈ work ∧ p.Includes q r := by
  fun_induction expandFrom p work seen found with
  | case1 => cases h; exact .inl member
  | case2 => cases h
  | case3 seen found b rest block present old ih =>
    rcases ih h with inside | ⟨elementary, q, todo, inner⟩
    · exact .inl inside
    · exact .inr ⟨elementary, q, List.mem_cons_of_mem _ todo, inner⟩
  | case4 seen found b rest block present fresh ih =>
    rcases ih h with inside | ⟨elementary, q, todo, inner⟩
    · exact .inl inside
    · refine .inr ⟨elementary, ?_⟩
      rcases List.mem_append.mp todo with listed | todo
      · exact ⟨.block b, List.mem_cons_self, .member present (List.mem_reverse.mp listed) inner⟩
      · exact ⟨q, List.mem_cons_of_mem _ todo, inner⟩
  | case5 seen found r' rest elementary defined ih =>
    rcases ih h with inside | ⟨elementary, q, todo, inner⟩
    · rcases OrderedSet.mem_insert.mp inside with rfl | inside
      · refine .inr ⟨?_, r, List.mem_cons_self, .self r⟩
        cases r with
        | block b => exact absurd rfl (elementary b)
        | point => rfl
        | path => rfl
      · exact .inl inside
    · exact .inr ⟨elementary, q, List.mem_cons_of_mem _ todo, inner⟩
  | case6 => cases h

def Met (seen : List BlockId) (found : ResourceSet) : Resource → Prop
  | .block b => b ∈ seen
  | r => r ∈ found

/-- Every member of a block that was seen was met or is still to do. -/
def Explored (p : Plant) (work : List Resource) (seen : List BlockId) (found : ResourceSet) : Prop :=
  ∀ b ∈ seen, ∀ block, p.block? b = some block → ∀ m, m ∈ block.members →
    Met seen found m ∨ m ∈ work

theorem Met.mono {seen seen' : List BlockId} {found found' : ResourceSet} {r : Resource}
    (h : Met seen found r) (blocks : ∀ b ∈ seen, b ∈ seen') (rest : ∀ r, r ∈ found → r ∈ found') :
    Met seen' found' r := by
  cases r with
  | block b => exact blocks b h
  | point => exact rest _ h
  | path => exact rest _ h

theorem expandFrom_complete {p : Plant} {work : List Resource} {seen : List BlockId}
    {found expanded : ResourceSet} (h : p.expandFrom work seen found = .ok expanded)
    (explored : Explored p work seen found) :
    ∃ seen', (∀ b ∈ seen, b ∈ seen') ∧ (∀ r, r ∈ found → r ∈ expanded) ∧
      (∀ r ∈ work, Met seen' expanded r) ∧ Explored p [] seen' expanded := by
  fun_induction expandFrom p work seen found with
  | case1 seen found =>
    cases h
    exact ⟨seen, fun _ old => old, fun _ old => old, fun _ none => (by cases none), explored⟩
  | case2 => cases h
  | case3 seen found b rest block present old ih =>
    have explored' : Explored p rest seen found := by
      intro c cs cblock cpresent m listed
      rcases explored c cs cblock cpresent m listed with met | todo
      · exact .inl met
      · rcases List.mem_cons.mp todo with rfl | todo
        · exact .inl old
        · exact .inr todo
    obtain ⟨seen', grown, kept, met, closed⟩ := ih h explored'
    refine ⟨seen', grown, kept, ?_, closed⟩
    intro r todo
    rcases List.mem_cons.mp todo with rfl | todo
    · exact grown b old
    · exact met r todo
  | case4 seen found b rest block present fresh ih =>
    have explored' : Explored p (block.members.toList.reverse ++ rest) (b :: seen) found := by
      intro c cs cblock cpresent m listed
      rcases List.mem_cons.mp cs with rfl | cs
      · rw [present] at cpresent
        cases cpresent
        exact .inr (List.mem_append_left _ (List.mem_reverse.mpr listed))
      · rcases explored c cs cblock cpresent m listed with met | todo
        · exact .inl (met.mono (fun _ => List.mem_cons_of_mem _) fun _ old => old)
        · rcases List.mem_cons.mp todo with rfl | todo
          · exact .inl List.mem_cons_self
          · exact .inr (List.mem_append_right _ todo)
    obtain ⟨seen', grown, kept, met, closed⟩ := ih h explored'
    refine ⟨seen', fun c cs => grown c (List.mem_cons_of_mem _ cs), kept, ?_, closed⟩
    intro r todo
    rcases List.mem_cons.mp todo with rfl | todo
    · exact grown b List.mem_cons_self
    · exact met r (List.mem_append_right _ todo)
  | case5 seen found r rest elementary defined ih =>
    have explored' : Explored p rest seen (found.insert r) := by
      intro c cs cblock cpresent m listed
      rcases explored c cs cblock cpresent m listed with met | todo
      · exact .inl (met.mono (fun _ old => old) fun _ old => OrderedSet.mem_insert.mpr (.inr old))
      · rcases List.mem_cons.mp todo with rfl | todo
        · cases m with
          | block b => exact absurd rfl (elementary b)
          | point => exact .inl (OrderedSet.mem_insert.mpr (.inl rfl))
          | path => exact .inl (OrderedSet.mem_insert.mpr (.inl rfl))
        · exact .inr todo
    obtain ⟨seen', grown, kept, met, closed⟩ := ih h explored'
    refine ⟨seen', grown, fun s old => kept s (OrderedSet.mem_insert.mpr (.inr old)), ?_, closed⟩
    intro s todo
    rcases List.mem_cons.mp todo with rfl | todo
    · cases s with
      | block b => exact absurd rfl (elementary b)
      | point => exact kept _ (OrderedSet.mem_insert.mpr (.inl rfl))
      | path => exact kept _ (OrderedSet.mem_insert.mpr (.inl rfl))
    · exact met s todo
  | case6 => cases h

theorem Explored.met {p : Plant} {seen : List BlockId} {found : ResourceSet}
    (closed : Explored p [] seen found) {q r : Resource} (start : Met seen found q)
    (h : p.Includes q r) : Met seen found r := by
  induction h with
  | self => exact start
  | member present listed _ ih =>
    rcases closed _ start _ present _ listed with met | none
    · exact ih met
    · cases none

theorem mem_expand {p : Plant} {request expanded : ResourceSet}
    (h : p.expand request = .ok expanded) {r : Resource} :
    r ∈ expanded ↔ r.isBlock = false ∧ ∃ q, q ∈ request ∧ p.Includes q r := by
  constructor
  · intro member
    rcases expandFrom_sound h member with none | ⟨elementary, q, todo, inner⟩
    · exact absurd none OrderedSet.not_mem_empty
    · exact ⟨elementary, q, List.mem_reverse.mp todo, inner⟩
  · intro h
    obtain ⟨elementary, q, asked, inner⟩ := h
    have start : Explored p request.toList.reverse [] ∅ := by
      intro b none
      cases none
    obtain ⟨seen, -, -, met, closed⟩ := expandFrom_complete h start
    have last := closed.met (met q (List.mem_reverse.mpr asked)) inner
    cases r with
    | block => cases elementary
    | point => exact last
    | path => exact last

/-- The search fails on the first resource still to do that the plant does not define. Members of a
    block are all defined. -/
theorem expandFrom_error_iff {p : Plant} {work : List Resource} {seen : List BlockId}
    {found : ResourceSet} {r : Resource} : p.expandFrom work seen found = .error r ↔
      work.find? (fun s => !p.defines s) = some r := by
  fun_induction expandFrom p work seen found with
  | case1 seen found => simp
  | case2 seen found b rest absent =>
    have undefined : p.defines (.block b) = false := by
      rw [Bool.eq_false_iff, Ne, defines_block_iff, absent]
      simp
    simp [undefined]
  | case3 seen found b rest block present old ih =>
    simp [ih, defines_block_iff.mpr ⟨block, present⟩]
  | case4 seen found b rest block present fresh ih =>
    have members : block.members.toList.reverse.find? (fun s => !p.defines s) = none := by
      rw [List.find?_eq_none]
      intro m listed
      simp [defines_member present (List.mem_reverse.mp listed)]
    rw [ih, List.find?_append, members, Option.none_or]
    simp [defines_block_iff.mpr ⟨block, present⟩]
  | case5 seen found r rest elementary defined ih => simp [ih, defined]
  | case6 seen found r rest elementary undefined => simp [undefined]

theorem expand_error_iff {p : Plant} {request : ResourceSet} {r : Resource} :
    p.expand request = .error r ↔
      request.toList.reverse.find? (fun s => !p.defines s) = some r :=
  expandFrom_error_iff

theorem expand_ok_iff {p : Plant} {request : ResourceSet} :
    (∃ expanded, p.expand request = .ok expanded) ↔ ∀ r, r ∈ request → p.defines r = true := by
  have defined : (∀ r, r ∈ request → p.defines r = true) ↔
      request.toList.reverse.find? (fun s => !p.defines s) = none := by
    simp [OrderedSet.mem_def]
  rw [defined]
  cases expansion : p.expand request with
  | ok expanded =>
    refine iff_of_true ⟨expanded, rfl⟩ (Option.eq_none_iff_forall_ne_some.mpr fun r undefined => ?_)
    cases expansion.symm.trans (expand_error_iff.mpr undefined)
  | error r => simp [expand_error_iff.mp expansion]

theorem mem_zone {p : Plant} {b : BlockId} {r : Resource} :
    r ∈ p.zone b ↔ r.isBlock = false ∧ p.Includes (.block b) r := by
  cases present : p.block? b with
  | none =>
    simp only [zone, present, OrderedSet.not_mem_empty, false_iff]
    intro h
    obtain ⟨elementary, inner⟩ := h
    cases inner with
    | self => cases elementary
    | member found => rw [present] at found; cases found
  | some block =>
    obtain ⟨members, expansion⟩ :=
      expand_ok_iff.mpr fun m (listed : m ∈ block.members) => defines_member present listed
    simp only [zone, present, expansion, mem_expand expansion]
    constructor
    · intro h
      obtain ⟨elementary, m, listed, inner⟩ := h
      exact ⟨elementary, .member present listed inner⟩
    · intro h
      obtain ⟨elementary, inner⟩ := h
      cases inner with
      | self => cases elementary
      | member found listed inner =>
        rw [present] at found
        cases found
        exact ⟨elementary, _, listed, inner⟩

theorem enclosingFrom_sound {p : Plant} {work : List Resource} {found : List BlockId}
    {b : BlockId} (h : b ∈ p.enclosingFrom work found) :
    b ∈ found ∨ ∃ r ∈ work, p.Encloses b r := by
  fun_induction enclosingFrom p work found with
  | case1 => exact .inl h
  | case2 found r rest fresh ih =>
    rcases ih h with old | ⟨s, todo, inner⟩
    · rcases List.mem_append.mp old with old | new
      · exact .inl old
      · obtain ⟨block, present, listed⟩ := mem_blocksListing.mp (List.mem_filter.mp new).1
        exact .inr ⟨r, List.mem_cons_self, block, present, r, listed, .self r⟩
    · rcases List.mem_append.mp todo with new | todo
      · obtain ⟨c, listing, rfl⟩ := List.mem_map.mp new
        have listing := (List.mem_filter.mp (List.mem_reverse.mp listing)).1
        obtain ⟨cblock, cpresent, listed⟩ := mem_blocksListing.mp listing
        obtain ⟨block, present, m, member, inner⟩ := inner
        have whole := inner.trans (.member cpresent listed (.self r))
        exact .inr ⟨r, List.mem_cons_self, block, present, m, member, whole⟩
      · exact .inr ⟨s, List.mem_cons_of_mem _ todo, inner⟩

theorem enclosingFrom_complete {p : Plant} {work : List Resource} {found : List BlockId}
    (explored : ∀ b ∈ found, .block b ∈ work ∨ ∀ c ∈ p.blocksListing (.block b), c ∈ found) :
    (∀ b ∈ found, b ∈ p.enclosingFrom work found) ∧
      (∀ r ∈ work, ∀ b ∈ p.blocksListing r, b ∈ p.enclosingFrom work found) ∧
      ∀ b ∈ p.enclosingFrom work found,
        ∀ c ∈ p.blocksListing (.block b), c ∈ p.enclosingFrom work found := by
  fun_induction enclosingFrom p work found with
  | case1 found =>
    refine ⟨fun _ old => old, fun _ none => (by cases none), fun b old => ?_⟩
    rcases explored b old with none | closed
    · cases none
    · exact closed
  | case2 found r rest fresh ih =>
    have listing : ∀ b ∈ p.blocksListing r, b ∈ found ++ fresh := by
      intro b listed
      by_cases old : b ∈ found
      · exact List.mem_append_left _ old
      · exact List.mem_append_right _ (List.mem_filter.mpr ⟨listed, by simpa using old⟩)
    obtain ⟨kept, worked, closed⟩ := ih (by
      intro b member
      rcases List.mem_append.mp member with old | new
      · rcases explored b old with todo | closed
        · rcases List.mem_cons.mp todo with here | todo
          · subst here
            exact .inr listing
          · exact .inl (List.mem_append_right _ todo)
        · exact .inr fun c listed => List.mem_append_left _ (closed c listed)
      · exact .inl (List.mem_append_left _
          (List.mem_map.mpr ⟨b, List.mem_reverse.mpr new, rfl⟩)))
    refine ⟨fun b old => kept b (List.mem_append_left _ old), fun s todo b listed => ?_, closed⟩
    rcases List.mem_cons.mp todo with rfl | todo
    · exact kept b (listing b listed)
    · exact worked s (List.mem_append_right _ todo) b listed

theorem mem_of_includes {p : Plant} {found : List BlockId} {m r : Resource}
    (listing : ∀ b ∈ p.blocksListing r, b ∈ found)
    (closed : ∀ b ∈ found, ∀ c ∈ p.blocksListing (.block b), c ∈ found) (h : p.Includes m r)
    {b : BlockId} {block : Block} (present : p.block? b = some block) (listed : m ∈ block.members) :
    b ∈ found := by
  induction h generalizing b block with
  | self => exact listing b (mem_blocksListing.mpr ⟨block, present, listed⟩)
  | member inside deeper _ ih =>
    have below := ih listing inside deeper
    exact closed _ below b (mem_blocksListing.mpr ⟨block, present, listed⟩)

theorem mem_enclosing {p : Plant} {r : Resource} {b : BlockId} :
    b ∈ p.enclosing r ↔ p.Encloses b r := by
  constructor
  · intro h
    rcases enclosingFrom_sound h with none | ⟨s, here, inner⟩
    · cases none
    · rw [List.mem_singleton] at here
      exact here ▸ inner
  · intro h
    obtain ⟨block, present, m, listed, inner⟩ := h
    have start : ∀ c ∈ ([] : List BlockId), Resource.block c ∈ [r] ∨
        ∀ e ∈ p.blocksListing (.block c), e ∈ ([] : List BlockId) := by
      intro c none
      cases none
    obtain ⟨-, listing, closed⟩ := enclosingFrom_complete start
    exact mem_of_includes (listing r List.mem_cons_self) closed inner present listed

structure Alike (p q : Plant) : Prop where
  block : q.block? = p.block?
  defines : q.defines = p.defines

namespace Alike

variable {p q : Plant}

theorem refl (p : Plant) : Alike p p := ⟨rfl, rfl⟩

theorem symm (alike : Alike p q) : Alike q p := ⟨alike.block.symm, alike.defines.symm⟩

theorem trans {r : Plant} (first : Alike p q) (second : Alike q r) : Alike p r :=
  ⟨second.block.trans first.block, second.defines.trans first.defines⟩

theorem expandFrom (alike : Alike p q) (work : List Resource) (seen : List BlockId)
    (found : ResourceSet) : q.expandFrom work seen found = p.expandFrom work seen found := by
  fun_induction Plant.expandFrom p work seen found with
  | case1 => rw [Plant.expandFrom]
  | case2 seen found b rest absent =>
    rw [Plant.expandFrom]
    split
    · rfl
    · rename_i present
      rw [alike.block, absent] at present
      cases present
  | case3 seen found b rest block present old ih =>
    rw [Plant.expandFrom]
    split
    · rename_i absent
      rw [alike.block, present] at absent
      cases absent
    · rw [if_pos old, ih]
  | case4 seen found b rest block present fresh ih =>
    rw [Plant.expandFrom]
    split
    · rename_i absent
      rw [alike.block, present] at absent
      cases absent
    · rename_i other found
      rw [alike.block, present] at found
      cases found
      rw [if_neg fresh, ih]
  | case5 seen found r rest elementary defined ih =>
    rw [Plant.expandFrom, alike.defines, if_pos defined, ih]
    exact elementary
  | case6 seen found r rest elementary undefined =>
    rw [Plant.expandFrom, alike.defines, if_neg undefined]
    exact elementary

theorem expand (alike : Alike p q) (request : ResourceSet) : q.expand request = p.expand request :=
  alike.expandFrom _ _ _

theorem includes (alike : Alike p q) {r s : Resource} (h : p.Includes r s) : q.Includes r s := by
  induction h with
  | self => exact .self _
  | member found listed _ ih => exact .member (by rw [alike.block, found]) listed ih

end Alike

theorem alike_withLocked {p q : Plant} {path : PathId} {locked : Bool}
    (h : p.withLocked path locked = .ok q) : Alike p q := by
  simp only [withLocked] at h
  split at h
  · cases h
  · cases h
    refine ⟨rfl, ?_⟩
    funext r
    cases r with
    | path => simp [defines, Layout.defines, Layout.setLocked, Layout.adjustPath]
    | point => rfl
    | block => rfl

theorem alike_setLocked {v w : PlantVersions} {path : PathId} {locked : Bool}
    (h : v.setLocked path locked = .ok w) : Alike v.current w.current := by
  simp only [PlantVersions.setLocked] at h
  split at h
  · cases h
    exact .refl _
  · split at h
    · cases h
    · rename_i current changed
      cases h
      exact alike_withLocked changed

end Plant

end TrafficControl
