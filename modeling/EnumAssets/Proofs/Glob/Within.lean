/-
# A pattern that does not go up

A segment leads to the directory above if it begins with a dot and two dots fit it
(`Segment.goesUp`): two dots do, and so does a shape like `.*`, which is tried on them.  No other
segment leaves what lies below a location.  Each keeps a spot within it (`keeps_text`,
`keeps_shape`, `keeps_directories`), and so do all of them together (`keeps_segments`).

Plain text moves no further than it says.  Segments that are plain text lead where their texts lead
as steps of a path (`exists_spot_of_texts`), also if they go up.
-/
import EnumAssets.Proofs.Glob.Expand
import EnumAssets.Proofs.Tree.Below

namespace EnumAssets.Glob

variable {t : Tree} {base : Location}

/-! ## 1. Segments that go up -/

/-- Whether a segment leads to the directory above: it begins with a dot, and two dots fit it. -/
def Segment.goesUp (seg : Segment) : Bool :=
  seg.startsWithDot && nameFits seg [Path.dot, Path.dot]

/-- A name fits plain text if it is this text. -/
theorem fits_map_char_iff {cs ds : List Char} : fits (cs.map .char) ds = true ↔ ds = cs := by
  induction cs generalizing ds with
  | nil => simp [fits]
  | cons c cs ih =>
    cases ds with
    | nil => simp [fits]
    | cons d ds => simp [fits, Token.admits, ih, @eq_comm Char c]

/-- **Plain text goes up** if it is two dots. -/
theorem Segment.goesUp_text_iff {cs : List Char} :
    (Segment.text cs).goesUp = true ↔ cs = ['.', '.'] := by
  have hdots : Utf8.decode [Path.dot, Path.dot] = some ".." := by decide
  rw [goesUp, nameFits, hdots, Option.any_some, tokens, Bool.and_eq_true, fits_map_char_iff]
  constructor
  · rintro ⟨-, hdots⟩
    exact hdots.symm
  · rintro rfl
    exact ⟨rfl, rfl⟩

/-- A dot and any run of characters goes up as well: two dots are tried on it. -/
example : (Segment.shape [.char '.', .anyRun]).goesUp = true := by
  cbv

/-- A segment that does not go up is tried on nothing unlisted but the dot. -/
theorem eq_dot_of_mem_unlistedFits {seg : Segment} (hup : seg.goesUp = false) {n : Name}
    (h : n ∈ unlistedFits seg) : n = [Path.dot] := by
  rw [unlistedFits] at h
  split at h
  · next hdot =>
    rw [Segment.goesUp, hdot, Bool.true_and] at hup
    obtain ⟨hmem, hfits⟩ := List.mem_filter.mp h
    rcases List.mem_cons.mp hmem with rfl | hmem
    · rw [hup] at hfits
      cases hfits
    · exact List.mem_singleton.mp hmem
  · cases h

theorem encode_ne_dots {cs : List Char} (hup : (Segment.text cs).goesUp = false) :
    Utf8.encode (String.ofList cs) ≠ [Path.dot, Path.dot] := by
  intro heq
  have hdots : [Path.dot, Path.dot] = Utf8.encode (String.ofList ['.', '.']) := by decide
  rw [hdots, Utf8.encode_eq_iff, String.ofList_inj] at heq
  rw [Segment.goesUp_text_iff.mpr heq] at hup
  cases hup

theorem slash_not_mem_encode {cs : List Char} (h : '/' ∉ cs) :
    Path.slash ∉ Utf8.encode (String.ofList cs) := by
  rwa [Path.slash_mem_encode_iff, String.toList_ofList]

/-! ## 2. Within a location -/

/-- Whether a spot is the one of its path, and at a location or below it. -/
structure Within (t : Tree) (base : Location) (s : Spot) : Prop where
  spot_eq : t.spot? s.path = some s
  below : base <:+ s.location

/-- Whether segments lead from spots within a location to no others. -/
def Keeps (t : Tree) (base : Location) (segs : List Segment) : Prop :=
  ∀ s, Within t base s → ∀ s' ∈ expand t s segs, Within t base s'

/-- Following a path keeps within a location if its spot is within it. -/
theorem within_of_mem_follow {p : Path} {segs : List Segment} (hkeeps : Keeps t base segs)
    (hp : ∀ s, t.spot? p = some s → base <:+ s.location) {s' : Spot} (h : s' ∈ follow t p segs) :
    Within t base s' := by
  rw [follow] at h
  split at h
  · next s hs => exact hkeeps s ⟨Tree.spot?_path hs, hp s hs⟩ s' h
  · cases h

theorem Within.of_mem_entries {s : Spot} (hfree : t.LinkFree) (hs : Within t base s)
    {entry : Name × Spot} (h : entry ∈ sorted t s) : Within t base entry.2 := by
  obtain ⟨n, s'⟩ := entry
  have hentry := mem_sorted.mp h
  refine ⟨Tree.spot?_of_mem_entries hfree hs.spot_eq hentry, ?_⟩
  obtain ⟨-, -, rfl⟩ := (Tree.mem_entries_iff hfree).mp hentry
  exact hs.below.trans (List.suffix_cons _ _)

theorem keeps_nil : Keeps t base [] := by
  intro s hs s' h
  rw [expand, List.mem_singleton] at h
  rwa [h]

section

variable {rest : List Segment} (hfree : t.LinkFree)

include hfree

theorem keeps_text {cs : List Char} (hslash : '/' ∉ cs) (hup : (Segment.text cs).goesUp = false)
    (hkeeps : Keeps t base rest) : Keeps t base (.text cs :: rest) := by
  intro s hs s' h
  rw [expand_text] at h
  split at h
  · cases h
  · refine within_of_mem_follow hkeeps (fun mid hmid => hs.below.trans ?_) h
    exact Tree.suffix_of_descend (Path.stepOf_ne_dots (encode_ne_dots hup))
      (Tree.descend_of_spot?_extend hfree hs.spot_eq (slash_not_mem_encode hslash) hmid)

theorem keeps_shape {ts : List Token} (hup : (Segment.shape ts).goesUp = false)
    (hkeeps : Keeps t base rest) : Keeps t base (.shape ts :: rest) := by
  intro s hs s' h
  rw [expand_shape] at h
  split at h
  · cases h
  · rcases List.mem_append.mp h with hunlisted | hlisted
    · obtain ⟨n, hn, h⟩ := List.mem_flatMap.mp hunlisted
      obtain rfl := eq_dot_of_mem_unlistedFits hup hn
      refine within_of_mem_follow hkeeps (fun mid hmid => hs.below.trans ?_) h
      exact Tree.suffix_of_descend (by decide)
        (Tree.descend_of_spot?_join hfree hs.spot_eq (by decide) hmid)
    · obtain ⟨entry, hentry, h⟩ := List.mem_flatMap.mp hlisted
      split at h
      · exact hkeeps _ (hs.of_mem_entries hfree hentry) s' h
      · cases h

/-- Any number of directories: each step down leaves less room below. -/
theorem keeps_directories (hkeeps : ∀ next more, rest = next :: more → Keeps t base more) (s : Spot)
    (hs : Within t base s) : ∀ s' ∈ expand t s (.directories :: rest), Within t base s' := by
  intro s' h
  rw [expand_directories] at h
  split at h
  · cases h
  · obtain ⟨entry, hentry, h⟩ := List.mem_flatMap.mp h
    have hwithin := hs.of_mem_entries hfree hentry
    have hroom := t.room_lt_of_mem_entries (mem_sorted.mp hentry)
    rcases List.mem_append.mp h with hnext | hdeeper
    · cases rest with
      | nil =>
        rw [nextOf] at hnext
        split at hnext
        · rwa [List.mem_singleton.mp hnext]
        · cases hnext
      | cons next more =>
        rw [nextOf] at hnext
        split at hnext
        · exact hkeeps next more rfl _ hwithin s' hnext
        · cases hnext
    · exact keeps_directories hkeeps entry.2 hwithin s' hdeeper
termination_by t.room s

/-- **Segments that do not go up** keep within a location.  Two lists of segments go along in the
induction, because any number of directories takes the segment behind it with it. -/
theorem keeps_segments : ∀ {segs : List Segment},
    (∀ seg ∈ segs, seg.NoSlash ∧ seg.goesUp = false) →
      Keeps t base segs ∧ ∀ next more, segs = next :: more → Keeps t base more
  | [], _ => ⟨keeps_nil, nofun⟩
  | seg :: rest, hsegs => by
    obtain ⟨hslash, hup⟩ := hsegs seg List.mem_cons_self
    obtain ⟨hkeeps, hmore⟩ :=
      keeps_segments fun seg' hseg => hsegs seg' (List.mem_cons_of_mem _ hseg)
    refine ⟨?_, ?_⟩
    · cases seg with
      | text cs => exact keeps_text hfree (hslash cs rfl) hup hkeeps
      | directories => exact keeps_directories hfree hmore
      | shape ts => exact keeps_shape hfree hup hkeeps
    · rintro next more heq
      cases heq
      exact hkeeps

/-! ## 3. Plain text in front -/

/-- **Plain text leads where it says**: from a spot where its texts lead as steps of a path. -/
theorem exists_spot_of_texts {x : Spot} : ∀ {parts : List (List Char)} {s : Spot},
    (∀ part ∈ parts, '/' ∉ part) → t.spot? s.path = some s →
      x ∈ expand t s (parts.map .text ++ rest) →
        ∃ s', t.spot? s'.path = some s' ∧ x ∈ expand t s' rest ∧
          t.descend s.location ((parts.map fun part =>
            Utf8.encode (String.ofList part)).map Path.stepOf) = some s'.location
  | [], s, _, hs, h => ⟨s, hs, h, rfl⟩
  | part :: parts, s, hparts, hs, h => by
    rw [List.map_cons, List.cons_append, expand_text] at h
    split at h
    · cases h
    · rw [follow] at h
      split at h
      · next mid hmid =>
        have hstep := Tree.descend_of_spot?_extend hfree hs
          (slash_not_mem_encode (hparts part List.mem_cons_self)) hmid
        obtain ⟨s', hs', hx, hdown⟩ := exists_spot_of_texts
          (fun part' hpart => hparts part' (List.mem_cons_of_mem _ hpart)) (Tree.spot?_path hmid) h
        refine ⟨s', hs', hx, ?_⟩
        rw [List.map_cons, List.map_cons, ← List.singleton_append, Tree.descend_append, hstep]
        exact hdown
      · cases h

end

end EnumAssets.Glob
