/-
# What a pattern finds

A pattern is matched on its way through the tree, and assets are picked from where it leads
(`picked`). Trees that differ in files that are no assets give the same assets in the same order
(`agree_segments`).  A place on the way holds the same in both trees, and then the pattern goes on
alike; or it is spare, and then nothing comes of it: a file can only be the end of a pattern,
because no path goes on behind it, and this file is no asset (`picked_expand_of_spare`).

The argument goes by the sorts of segments (`agree_text`, `agree_shape`, `agree_directories`).  The
entries of a directory are tried in ascending order.  Leaving some of them out before or after they
are sorted is the same (`filter_mergeSort`), so the entries that the two trees share come in the
same order.
-/
import EnumAssets.Proofs.Glob.Pattern
import EnumAssets.Proofs.Path.Order
import EnumAssets.Proofs.Path.Stem
import EnumAssets.Proofs.Scan

namespace EnumAssets.Glob

/-! ## 1. Sorted lists with some elements left out -/

section Sorted

variable {α : Type} {le : α → α → Bool}

/-- Where a list turns from one sort of elements to the other is no matter of how it is written. -/
theorem append_inj_of_forall {p : α → Bool} {front back front' back' : List α}
    (heq : front ++ back = front' ++ back') (hfront : ∀ x ∈ front, p x = true)
    (hback : ∀ x ∈ back, p x = false) (hfront' : ∀ x ∈ front', p x = true)
    (hback' : ∀ x ∈ back', p x = false) : front = front' ∧ back = back' := by
  have htake : ∀ {front back : List α}, (∀ x ∈ front, p x = true) → (∀ x ∈ back, p x = false) →
      (front ++ back).takeWhile p = front := by
    intro front back hfront hback
    rw [List.takeWhile_append_of_pos hfront]
    cases back with
    | nil => exact List.append_nil _
    | cons b back =>
      rw [List.takeWhile_cons_of_neg (by rw [hback b List.mem_cons_self]; decide), List.append_nil]
  have hsame : front = front' := by
    rw [← htake hfront hback, heq, htake hfront' hback']
  subst hsame
  exact ⟨rfl, List.append_cancel_left heq⟩

/-- **Leaving out elements** before a list is sorted, or afterwards. -/
theorem filter_mergeSort (htrans : ∀ a b c, le a b = true → le b c = true → le a c = true)
    (htotal : ∀ a b, (le a b || le b a) = true) (p : α → Bool) :
    ∀ l : List α, (l.mergeSort le).filter p = (l.filter p).mergeSort le
  | [] => by rw [List.filter_nil, List.mergeSort_nil, List.filter_nil]
  | a :: l => by
    have ih := filter_mergeSort htrans htotal p l
    obtain ⟨front, back, hcons, hl, hfront⟩ := List.mergeSort_cons htrans htotal a l
    rw [hl, List.filter_append] at ih
    rw [hcons, List.filter_append]
    by_cases ha : p a = true
    · rw [List.filter_cons_of_pos ha, List.filter_cons_of_pos ha]
      obtain ⟨front', back', hcons', hl', hfront'⟩ :=
        List.mergeSort_cons htrans htotal a (l.filter p)
      -- in both lists the elements in front of `a` are those that `a` is not in front of
      have hback : ∀ b ∈ back, (!le a b) = false := by
        have hsorted := List.pairwise_mergeSort htrans htotal (a :: l)
        rw [hcons, List.pairwise_append, List.pairwise_cons] at hsorted
        exact fun b hb => by rw [hsorted.2.1.1 b hb]; rfl
      have hback' : ∀ b ∈ back', (!le a b) = false := by
        have hsorted := List.pairwise_mergeSort htrans htotal (a :: l.filter p)
        rw [hcons', List.pairwise_append, List.pairwise_cons] at hsorted
        exact fun b hb => by rw [hsorted.2.1.1 b hb]; rfl
      obtain ⟨hf, hb⟩ := append_inj_of_forall (ih.trans hl')
        (fun b hb => hfront b (List.mem_of_mem_filter hb))
        (fun b hb => hback b (List.mem_of_mem_filter hb)) hfront' hback'
      rw [hcons', hf, hb]
    · rw [List.filter_cons_of_neg ha, List.filter_cons_of_neg ha, ih]

end Sorted

variable {t t' : Tree} {ending : Bytes} {s : Spot}

/-! ## 2. Entries in ascending order -/

/-- Whether an entry is not behind another one, by their names. -/
def byName (a b : Name × Spot) : Bool :=
  !Path.before (b.1.map UInt8.toNat) (a.1.map UInt8.toNat)

/-- The entries below a spot, ascending by name. -/
def sorted (t : Tree) (s : Spot) : List (Name × Spot) :=
  (t.entries s (extend s.path)).mergeSort byName

theorem map_entriesBelow (t : Tree) (s : Spot) :
    ((entriesBelow t s).map fun entry => (entry.1, entry.2.1)) = sorted t s := by
  rw [entriesBelow, sorted, ← t.map_below]
  exact List.map_mergeSort fun _ _ _ _ => rfl

theorem byName_iff {a b : Name × Spot} :
    byName a b = true ↔ a.1.map UInt8.toNat ≤ b.1.map UInt8.toNat := by
  rw [byName, Bool.not_eq_true', ← Bool.not_eq_true, Path.before_iff, not_lt]

/-- Entries may be left out before they are sorted. -/
theorem filter_sorted (p : Name × Spot → Bool) (t : Tree) (s : Spot) :
    (sorted t s).filter p = ((t.entries s (extend s.path)).filter p).mergeSort byName := by
  refine filter_mergeSort (fun a b c hab hbc => ?_) (fun a b => ?_) p _
  · rw [byName_iff] at hab hbc ⊢
    exact hab.trans hbc
  · rw [Bool.or_eq_true, byName_iff, byName_iff]
    exact le_total _ _

theorem mem_sorted {entry : Name × Spot} :
    entry ∈ sorted t s ↔ entry ∈ t.entries s (extend s.path) :=
  List.mem_mergeSort

/-- **Going through the entries of two trees** is the same if it is the same for the entries that
they share, and comes to nothing for the others. -/
theorem flatMap_sorted_eq {β : Type} (h : t.Besides ending t') (hfree : t.LinkFree)
    {f f' : Name × Spot → List β}
    (hnil : ∀ entry ∈ t.entries s (extend s.path), t.stands ending entry = false → f entry = [])
    (hnil' : ∀ entry ∈ t'.entries s (extend s.path), t'.stands ending entry = false →
      f' entry = [])
    (hsame : ∀ entry ∈ t.entries s (extend s.path), entry ∈ t'.entries s (extend s.path) →
      f' entry = f entry) :
    (sorted t' s).flatMap f' = (sorted t s).flatMap f := by
  rw [← flatMap_filter fun entry hentry => hnil entry (mem_sorted.mp hentry),
    ← flatMap_filter fun entry hentry => hnil' entry (mem_sorted.mp hentry), h.stands_eq,
    filter_sorted, filter_sorted, h.filter_entries_eq hfree]
  refine List.flatMap_congr fun entry hentry => ?_
  have hmem := List.mem_mergeSort.mp hentry
  refine hsame entry (List.mem_of_mem_filter hmem) ?_
  rw [← h.filter_entries_eq hfree] at hmem
  exact List.mem_of_mem_filter hmem

/-! ## 3. Following the segments -/

/-- Where segments lead from a path, if this leads somewhere. -/
def follow (t : Tree) (p : Path) (segs : List Segment) : List Spot :=
  match t.spot? p with
  | some s => expand t s segs
  | none => []

theorem expand_text (t : Tree) (s : Spot) (cs : List Char) (rest : List Segment) :
    expand t s (.text cs :: rest) =
      if isUnlisted cs && !t.isDirectorySpot s then []
      else follow t (extend s.path (Utf8.encode (String.ofList cs))) rest := by
  rw [expand]
  rfl

theorem expand_shape (t : Tree) (s : Spot) (ts : List Token) (rest : List Segment) :
    expand t s (.shape ts :: rest) =
      if !t.isDirectorySpot s then []
      else (unlistedFits (.shape ts)).flatMap (fun n => follow t (s.path.join ⟨n⟩) rest) ++
        (sorted t s).flatMap fun entry =>
          if nameFits (.shape ts) entry.1 then expand t entry.2 rest else [] := by
  rw [expand, ← map_entriesBelow, List.flatMap_map]
  rfl

/-- What an entry adds to any number of directories before the entries below it are gone through. -/
def nextOf (t : Tree) (entry : Name × Spot) : List Segment → List Spot
  | [] => if t.isDirectorySpot entry.2 then [entry.2] else []
  | next :: more => if nameFits next entry.1 then expand t entry.2 more else []

theorem expand_directories (t : Tree) (s : Spot) (rest : List Segment) :
    expand t s (.directories :: rest) =
      if !t.isDirectorySpot s then []
      else (sorted t s).flatMap fun entry =>
        nextOf t entry rest ++ expand t entry.2 (.directories :: rest) := by
  rw [expand, ← map_entriesBelow, List.flatMap_map]
  cases rest <;> rfl

/-! ## 4. Assets -/

/-- The spots of assets. -/
def picked (t : Tree) (ss : List Spot) : List Spot :=
  ss.filter fun s => t.isFileSpot s && s.path.isAsset

theorem picked_append (t : Tree) (xs ys : List Spot) :
    picked t (xs ++ ys) = picked t xs ++ picked t ys :=
  List.filter_append _ _

theorem picked_flatMap {α : Type} (t : Tree) (xs : List α) (f : α → List Spot) :
    picked t (xs.flatMap f) = xs.flatMap fun x => picked t (f x) :=
  List.filter_flatMap

/-- **Nothing comes of a spare spot**: it is a file, which only the end of a pattern can be, and no
asset. -/
theorem picked_expand_of_spare (hfree : t.LinkFree) (hno : NoAsset ending)
    (hs : t.spot? s.path = some s) (hspare : t.Spare ending s.location) {segs : List Segment}
    (hsegs : ∀ seg ∈ segs, seg.NoSlash) : picked t (expand t s segs) = [] := by
  obtain ⟨hplace, hat, -, -⟩ := (Tree.spot?_eq_some_iff hfree).mp hs
  have hdir : t.isDirectorySpot s = false := hspare.isDirectoryAt_eq
  cases segs with
  | nil =>
    obtain ⟨node, hnode⟩ := Option.ne_none_iff_exists'.mp hat
    obtain ⟨n, parent, content, hloc, hends, -⟩ := hspare.exists_file hnode
    obtain ⟨m, outer, hloc', hname⟩ := Tree.exists_fileName_of_place? hfree hplace hdir
    rw [hloc] at hloc'
    obtain ⟨rfl, -⟩ := List.cons.inj hloc'
    rw [expand, picked, List.filter_singleton, hno.isAsset_eq_false hname hends, Bool.and_false]
    rfl
  | cons seg rest =>
    cases seg with
    | text cs =>
      have hslash : Path.slash ∉ Utf8.encode (String.ofList cs) := by
        rw [Path.slash_mem_encode_iff, String.toList_ofList]
        exact hsegs _ List.mem_cons_self cs rfl
      have hnone : t.spot? (extend s.path (Utf8.encode (String.ofList cs))) = none := by
        rw [Option.eq_none_iff_forall_ne_some]
        intro s' hs'
        have hplace' := ((Tree.spot?_eq_some_iff hfree).mp hs').1
        rw [Tree.place?_extend_eq_none hfree hplace hdir hslash] at hplace'
        cases hplace'
      rw [expand_text, follow, hnone]
      split <;> rfl
    | directories =>
      rw [expand_directories, hdir]
      rfl
    | shape ts =>
      rw [expand_shape, hdir]
      rfl

/-- An entry that does not stand is spare. -/
theorem spare_of_not_stands (hfree : t.LinkFree) {entry : Name × Spot} {pathOf : Name → Path}
    (hentry : entry ∈ t.entries s pathOf) (hstands : t.stands ending entry = false) :
    t.Spare ending entry.2.location := by
  obtain ⟨n, s'⟩ := entry
  obtain ⟨-, -, rfl⟩ := (Tree.mem_entries_iff hfree).mp hentry
  intro node hnode
  rw [Tree.stands_eq_endsIn hfree hnode] at hstands
  simpa using hstands

/-- What an entry that does not stand leads to is no asset. -/
theorem picked_eq_nil_of_not_stands (hfree : t.LinkFree) (hno : NoAsset ending)
    (hs : t.spot? s.path = some s) {entry : Name × Spot}
    (hentry : entry ∈ t.entries s (extend s.path)) (hstands : t.stands ending entry = false)
    {segs : List Segment} (hsegs : ∀ seg ∈ segs, seg.NoSlash) :
    picked t (expand t entry.2 segs) = [] :=
  picked_expand_of_spare hfree hno (Tree.spot?_of_mem_entries hfree hs hentry)
    (spare_of_not_stands hfree hentry hstands) hsegs

/-! ## 5. The same assets in both trees -/

/-- Whether segments lead to the same assets in two trees, from wherever a path leads in both of
them. -/
def Agree (t t' : Tree) (segs : List Segment) : Prop :=
  ∀ s : Spot, t.spot? s.path = some s → t'.spot? s.path = some s →
    picked t' (expand t' s segs) = picked t (expand t s segs)

section

variable (h : t.Besides ending t') (hfree : t.LinkFree) (hno : NoAsset ending)

include h hfree hno

/-- Following a path is the same in both trees, or comes to nothing in either. -/
theorem picked_follow_eq {p : Path} {segs : List Segment} (hsegs : ∀ seg ∈ segs, seg.NoSlash)
    (hagree : Agree t t' segs) : picked t' (follow t' p segs) = picked t (follow t p segs) := by
  rcases h.spot?_same_or_spare hfree p with hsame | ⟨hspare, hspare'⟩
  · rw [follow, hsame, follow]
    split
    · next s hs =>
      obtain ⟨-, -, rfl, -⟩ := (Tree.spot?_eq_some_iff hfree).mp hs
      exact hagree s hs (hsame.trans hs)
    · rfl
  · have hnil : ∀ t : Tree, t.LinkFree → (∀ s, t.spot? p = some s → t.Spare ending s.location) →
        picked t (follow t p segs) = [] := by
      intro t hfree hspare
      rw [follow]
      split
      · next s hs =>
        obtain ⟨-, -, rfl, -⟩ := (Tree.spot?_eq_some_iff hfree).mp hs
        exact picked_expand_of_spare hfree hno hs (hspare s hs) hsegs
      · rfl
    rw [hnil t hfree hspare, hnil t' (h.linkFree hfree) hspare']

theorem agree_nil : Agree t t' [] := by
  intro s hs hs'
  have hnone : ∀ seg ∈ ([] : List Segment), seg.NoSlash := fun _ hseg =>
    absurd hseg List.not_mem_nil
  rcases h.same_or_spare s.location with ⟨hat, -⟩ | ⟨hspare, hspare'⟩
  · have hfile : t'.isFileSpot s = t.isFileSpot s := by
      rw [Tree.isFileSpot, hat, Tree.isFileSpot]
    rw [expand, expand, picked, picked, List.filter_singleton, List.filter_singleton, hfile]
  · rw [picked_expand_of_spare hfree hno hs hspare hnone,
      picked_expand_of_spare (h.linkFree hfree) hno hs' hspare' hnone]

theorem agree_text {cs : List Char} {rest : List Segment} (hrest : ∀ seg ∈ rest, seg.NoSlash)
    (hagree : Agree t t' rest) {s : Spot} :
    picked t' (expand t' s (.text cs :: rest)) = picked t (expand t s (.text cs :: rest)) := by
  have hdir : t'.isDirectorySpot s = t.isDirectorySpot s := h.isDirectoryAt_eq s.location
  rw [expand_text, expand_text, hdir]
  split
  · rfl
  · exact picked_follow_eq h hfree hno hrest hagree

theorem agree_shape {ts : List Token} {rest : List Segment} (hrest : ∀ seg ∈ rest, seg.NoSlash)
    (hagree : Agree t t' rest) : Agree t t' (.shape ts :: rest) := by
  intro s hs hs'
  have hfree' := h.linkFree hfree
  have hdir : t'.isDirectorySpot s = t.isDirectorySpot s := h.isDirectoryAt_eq s.location
  rw [expand_shape, expand_shape, hdir]
  split
  · rfl
  · rw [picked_append, picked_append, picked_flatMap, picked_flatMap, picked_flatMap,
      picked_flatMap]
    refine congrArg₂ (· ++ ·)
      (List.flatMap_congr fun n _ => picked_follow_eq h hfree hno hrest hagree) ?_
    refine flatMap_sorted_eq h hfree (fun entry hentry hstands => ?_)
      (fun entry hentry hstands => ?_) fun entry hentry hentry' => ?_
    · split
      · exact picked_eq_nil_of_not_stands hfree hno hs hentry hstands hrest
      · rfl
    · split
      · exact picked_eq_nil_of_not_stands hfree' hno hs' hentry hstands hrest
      · rfl
    · split
      · exact hagree entry.2 (Tree.spot?_of_mem_entries hfree hs hentry)
          (Tree.spot?_of_mem_entries hfree' hs' hentry')
      · rfl

/-- What an entry adds by itself is the same in both trees. -/
theorem picked_nextOf_eq {rest : List Segment}
    (hagree : ∀ next more, rest = next :: more → Agree t t' more) {entry : Name × Spot}
    (hspot : t.spot? entry.2.path = some entry.2) (hspot' : t'.spot? entry.2.path = some entry.2) :
    picked t' (nextOf t' entry rest) = picked t (nextOf t entry rest) := by
  have hdir : t'.isDirectorySpot entry.2 = t.isDirectorySpot entry.2 :=
    h.isDirectoryAt_eq entry.2.location
  cases rest with
  | nil =>
    rw [nextOf, nextOf, hdir]
    split
    · have hnil := agree_nil h hfree hno entry.2 hspot hspot'
      rwa [expand, expand] at hnil
    · rfl
  | cons next more =>
    rw [nextOf, nextOf]
    split
    · exact hagree next more rfl entry.2 hspot hspot'
    · rfl

omit h in
theorem picked_nextOf_of_not_stands {rest : List Segment} (hrest : ∀ seg ∈ rest, seg.NoSlash)
    {s : Spot} (hs : t.spot? s.path = some s) {entry : Name × Spot}
    (hentry : entry ∈ t.entries s (extend s.path)) (hstands : t.stands ending entry = false) :
    picked t (nextOf t entry rest) = [] := by
  cases rest with
  | nil =>
    rw [Tree.stands, Bool.or_eq_false_iff] at hstands
    rw [nextOf, hstands.2]
    rfl
  | cons next more =>
    rw [nextOf]
    split
    · exact picked_eq_nil_of_not_stands hfree hno hs hentry hstands fun seg hseg =>
        hrest seg (List.mem_cons_of_mem _ hseg)
    · rfl

/-- Any number of directories: each step down leaves less room below. -/
theorem agree_directories {rest : List Segment} (hrest : ∀ seg ∈ rest, seg.NoSlash)
    (hagree : ∀ next more, rest = next :: more → Agree t t' more) (s : Spot)
    (hs : t.spot? s.path = some s) (hs' : t'.spot? s.path = some s) :
    picked t' (expand t' s (.directories :: rest)) =
      picked t (expand t s (.directories :: rest)) := by
  have hfree' := h.linkFree hfree
  have hdir : t'.isDirectorySpot s = t.isDirectorySpot s := h.isDirectoryAt_eq s.location
  have hsegs : ∀ seg ∈ Segment.directories :: rest, seg.NoSlash := by
    intro seg hseg
    rcases List.mem_cons.mp hseg with rfl | hseg
    · exact nofun
    · exact hrest seg hseg
  rw [expand_directories, expand_directories, hdir]
  split
  · rfl
  · rw [picked_flatMap, picked_flatMap]
    refine flatMap_sorted_eq h hfree (fun entry hentry hstands => ?_)
      (fun entry hentry hstands => ?_) fun entry hentry hentry' => ?_
    · rw [picked_append, picked_nextOf_of_not_stands hfree hno hrest hs hentry hstands,
        picked_eq_nil_of_not_stands hfree hno hs hentry hstands hsegs, List.append_nil]
    · rw [picked_append, picked_nextOf_of_not_stands hfree' hno hrest hs' hentry hstands,
        picked_eq_nil_of_not_stands hfree' hno hs' hentry hstands hsegs, List.append_nil]
    · have hspot := Tree.spot?_of_mem_entries hfree hs hentry
      have hspot' := Tree.spot?_of_mem_entries hfree' hs' hentry'
      have hroom := t.room_lt_of_mem_entries hentry
      rw [picked_append, picked_append, picked_nextOf_eq h hfree hno hagree hspot hspot',
        agree_directories hrest hagree entry.2 hspot hspot']
termination_by t.room s

/-- **The same assets are picked in both trees.**  Two lists of segments go along in the induction,
because any number of directories takes the segment behind it with it. -/
theorem agree_segments : ∀ {segs : List Segment}, (∀ seg ∈ segs, seg.NoSlash) →
    Agree t t' segs ∧ ∀ next more, segs = next :: more → Agree t t' more
  | [], _ => ⟨agree_nil h hfree hno, nofun⟩
  | seg :: rest, hsegs => by
    have hrest : ∀ seg ∈ rest, seg.NoSlash := fun seg' hseg =>
      hsegs seg' (List.mem_cons_of_mem _ hseg)
    obtain ⟨hagree, hmore⟩ := agree_segments hrest
    refine ⟨?_, ?_⟩
    · cases seg with
      | text cs => exact fun s _ _ => agree_text h hfree hno hrest hagree
      | directories => exact agree_directories h hfree hno hrest hmore
      | shape ts => exact agree_shape h hfree hno hrest hagree
    · rintro next more heq
      cases heq
      exact hagree

theorem assets_eq (text : String) : assets t' text = assets t text := by
  rw [assets, assets]
  split
  · rfl
  · next p hp =>
    split
    · rfl
    · have hsegs := noSlash_of_ofText? hp
      have hpicked : picked t' (spots t' p) = picked t (spots t p) :=
        picked_follow_eq h hfree hno hsegs (agree_segments h hfree hno hsegs).1
      rw [picked, picked] at hpicked
      rw [hpicked]

end

theorem isAsset_of_mem_assets {text : String} {p : Path} {ps : List Path}
    (h : assets t text = .ok ps) (hp : p ∈ ps) : p.isAsset = true := by
  rw [assets] at h
  split at h
  · cases h
  · split at h
    · cases h
      cases hp
    · cases h
      obtain ⟨s, hs, rfl⟩ := List.mem_map.mp hp
      have hpicked := (List.mem_filter.mp hs).2
      rw [Bool.and_eq_true] at hpicked
      exact hpicked.2

end EnumAssets.Glob
