/-
# Patterns and the root

A relative pattern is put behind the root as text, and both are read as one pattern: the characters
of the root are read as a pattern, too.  If each of them stands for itself (`Path.Literal`), the
segments in front are plain text with the names of the root (`exists_behind`).  They lead to the
root and nowhere else, so a pattern that does not go up finds files below the root only
(`glob_inside`).

Else the root need not lead to itself.  `[ab]` is a name that a directory may have, and as a pattern
it is the name `a` or the name `b`, so a pattern behind this root finds files below another
directory (`found_outside`).
-/
import EnumAssets.Proofs.Glob.Within
import EnumAssets.Proofs.Sources.Union

namespace EnumAssets

variable {t : Tree} {root p : Path} {loc : Location} {pattern : String} {s : Spot}

/-! ## 1. Roots and patterns -/

/-- The location that sources are relative to: an empty root stands for the working directory. -/
def Tree.base? (t : Tree) (root : Path) : Option Location :=
  if root.bytes = [] then some t.workingDirectory else t.place? root

/-- Whether a path leads to something further down than a location. -/
def Tree.Inside (t : Tree) (loc : Location) (p : Path) : Prop :=
  ∃ names, names ≠ [] ∧ t.place? p = some (names ++ loc)

/-- Whether a path is a text of characters that stand for themselves in a pattern. -/
def Path.Literal (root : Path) : Prop :=
  ∃ text, root = .ofText text ∧ ∀ c ∈ text.toList, Glob.IsLiteral c

namespace Glob

/-- Whether what lies between two slashes of a pattern is a segment that goes up. -/
def goesUp (part : List Char) : Bool :=
  (segment? part).any Segment.goesUp

/-- Whether no part of a pattern goes up. -/
def StaysDown (pattern : String) : Prop :=
  ∀ part ∈ pattern.toList.splitOn '/', goesUp part = false

/-- The names of a relative root lead from the working directory to where sources are relative
to. -/
theorem descend_names_of_base? (hfree : t.LinkFree) (hrel : root.isAbsolute = false)
    (h : t.base? root = some loc) : t.descend t.workingDirectory root.names = some loc := by
  rw [Tree.base?] at h
  split at h
  · next hnil =>
    rw [show root = ⟨[]⟩ from congrArg Path.mk hnil]
    exact h
  · have hdown := Tree.descend_names hfree h
    rwa [Tree.startOf, hrel] at hdown

/-! ## 2. The root as text -/

/-- Behind an empty root a pattern is itself. -/
theorem display_join_empty (pattern : String) :
    ((Path.ofText "").join (.ofText pattern)).display = pattern := by
  have hjoin : (Path.ofText "").join (.ofText pattern) = .ofText pattern := ite_self _
  rw [hjoin, Path.display, Path.ofText, Utf8.decodeLossy_encode]

/-- Whether a text is another one up to a slash at its end. -/
def Fronts (front text : String) : Prop :=
  text = front ∨ text = front ++ "/"

/-- **The text of a pattern behind a root**: a slash is between them. -/
theorem display_join {text : String} (hne : text ≠ "")
    (hrel : (Path.ofText pattern).isAbsolute = false) : ∃ front, Fronts front text ∧
      ((Path.ofText text).join (.ofText pattern)).display = front ++ "/" ++ pattern := by
  have hslash : [Path.slash] = Utf8.encode "/" := by decide
  have hshow : ∀ {front : String} {bytes : Bytes}, bytes = Utf8.encode front →
      (Path.ofText text).join (.ofText pattern) = ⟨bytes ++ Path.slash :: Utf8.encode pattern⟩ →
        ((Path.ofText text).join (.ofText pattern)).display = front ++ "/" ++ pattern := by
    rintro front _ rfl hjoin
    rw [hjoin, ← List.singleton_append, hslash, ← List.append_assoc, ← Utf8.encode_append,
      ← Utf8.encode_append, Path.display, Utf8.decodeLossy_encode]
  rcases Path.join_cases (.ofText text) hrel with ⟨hnil, -⟩ | ⟨front, hjoin, hfront | hfront⟩
  · have hempty : Utf8.encode text = Utf8.encode "" := congrArg Path.bytes hnil
    exact absurd (Utf8.encode_injective hempty) hne
  · exact ⟨text, Or.inl rfl, hshow hfront.symm hjoin⟩
  · -- the slash at the end of the root is one of its characters
    have hsuffix : "/".toList <:+ text.toList := by
      refine Utf8.suffix_of_encode_suffix (fun c hc => ?_) ?_
      · rw [List.mem_singleton.mp hc]
        decide
      · rw [← hslash]
        exact ⟨front, hfront.symm⟩
    obtain ⟨cs, hcs⟩ := hsuffix
    have htext : text = String.ofList cs ++ "/" := by
      rw [← String.toList_inj, String.toList_append, String.toList_ofList, hcs]
    have hbytes : front = Utf8.encode (String.ofList cs) := by
      rw [Path.ofText, htext, Utf8.encode_append, ← hslash] at hfront
      exact (List.append_cancel_right hfront).symm
    exact ⟨String.ofList cs, Or.inr htext, hshow hbytes hjoin⟩

/-- The names of a text are the stretches between its slashes that are not empty. -/
theorem names_ofText (text : String) : (Path.ofText text).names =
    ((text.toList.splitOn '/').map fun part => Utf8.encode (String.ofList part)).filter
      fun n => !n.isEmpty := by
  rw [Path.names, Path.segments_ofText]

/-- A slash at the end of a text is no name. -/
theorem Fronts.names_eq {front text : String} (h : Fronts front text) :
    (Path.ofText text).names = (Path.ofText front).names := by
  rcases h with rfl | rfl
  · rfl
  · have hslash : Utf8.encode "/" = [Path.slash] := by decide
    rw [Path.ofText, Utf8.encode_append, hslash, Path.names_append]
    exact List.append_nil _

theorem Fronts.isPrefix {front text : String} (h : Fronts front text) :
    front.toList <+: text.toList := by
  rcases h with rfl | rfl
  · exact List.prefix_refl _
  · rw [String.toList_append]
    exact List.prefix_append _ _

/-- A relative text stays relative with another one behind it. -/
theorem Fronts.head?_ne {front text : String} (h : Fronts front text) (hne : text ≠ "")
    (hhead : text.toList.head? ≠ some '/') (back : List Char) :
    (front.toList ++ back).head? ≠ some '/' := by
  cases hcs : front.toList with
  | nil =>
    rw [String.toList_eq_nil_iff] at hcs
    rcases h with rfl | rfl
    · exact absurd hcs hne
    · exact absurd (by rw [hcs]; rfl) hhead
  | cons c cs =>
    obtain ⟨more, hmore⟩ := h.isPrefix
    rwa [← hmore, hcs] at hhead

/-- What is read from a pattern that stays down does not go up. -/
theorem StaysDown.goesUp_eq_false (h : StaysDown pattern) {segs : List Segment}
    (hsegs : ∀ seg ∈ segs, ∃ part ∈ pattern.toList.splitOn '/', segment? part = some seg) :
    ∀ seg ∈ segs, seg.goesUp = false := by
  intro seg hseg
  obtain ⟨part, hpart, hread⟩ := hsegs seg hseg
  have hup := h part hpart
  rwa [goesUp, hread] at hup

/-- Whether a pattern is plain text with the names of a path, and behind it segments that do not go
up. -/
structure Behind (root : Path) (q : Pattern) (parts : List (List Char)) (segs : List Segment) :
    Prop where
  relative : q.absolute = false
  segments_eq : q.segments = parts.map .text ++ segs
  noSlash : ∀ part ∈ parts, '/' ∉ part
  names_eq : (parts.map fun part => Utf8.encode (String.ofList part)).filter (fun n => !n.isEmpty) =
    root.names
  goesUp_eq : ∀ seg ∈ segs, seg.goesUp = false

section

variable (hrel : root.isAbsolute = false) (hliteral : root.Literal)
  (hpattern : (Path.ofText pattern).isAbsolute = false) (hdown : StaysDown pattern)

include hrel hliteral hpattern hdown

/-- **A literal root is plain text with the names of the root**, in front of what the pattern
says. -/
theorem exists_behind {q : Pattern}
    (hq : Pattern.ofText? (root.join (.ofText pattern)).display = some q) :
    ∃ parts segs, Behind root q parts segs := by
  obtain ⟨text, rfl, hchars⟩ := hliteral
  have hroot := mt Path.isAbsolute_ofText_iff.mpr (Bool.eq_false_iff.mp hrel)
  have hhead := mt Path.isAbsolute_ofText_iff.mpr (Bool.eq_false_iff.mp hpattern)
  by_cases hne : text = ""
  · subst hne
    rw [display_join_empty] at hq
    exact ⟨[], q.segments, (ofText?_relative hhead hq).1, rfl, nofun, rfl,
      hdown.goesUp_eq_false (exists_part_of_mem_segments hhead hq)⟩
  · obtain ⟨front, hfront, hjoin⟩ := display_join hne hpattern
    rw [hjoin] at hq
    have htext : (front ++ "/" ++ pattern).toList = front.toList ++ '/' :: pattern.toList := by
      rw [String.toList_append, String.toList_append, List.append_assoc]
      rfl
    have hstart : (front ++ "/" ++ pattern).toList.head? ≠ some '/' :=
      htext ▸ hfront.head?_ne hne hroot _
    obtain ⟨segs, hsegs, hread⟩ := segments_behind_literal
      (fun c hc => hchars c (hfront.isPrefix.subset hc)) htext hstart hq
    refine ⟨front.toList.splitOn '/', segs, (ofText?_relative hstart hq).1, hsegs, ?_, ?_,
      hdown.goesUp_eq_false hread⟩
    · exact fun part hpart => Path.not_mem_of_mem_splitOn hpart
    · rw [hfront.names_eq, names_ofText]

/-! ## 3. Inside the root -/

/-- **What a pattern behind a literal root leads to** is within the root. -/
theorem within_of_mem_spots {q : Pattern} (hfree : t.LinkFree) (hroot : t.base? root = some loc)
    (hq : Pattern.ofText? (root.join (.ofText pattern)).display = some q) (hs : s ∈ spots t q) :
    Within t loc s := by
  obtain ⟨parts, segs, h⟩ := exists_behind hrel hliteral hpattern hdown hq
  rw [spots, h.relative, h.segments_eq] at hs
  split at hs
  · next start hstart =>
    obtain ⟨s', hs', hmem, hlead⟩ :=
      exists_spot_of_texts hfree h.noSlash (Tree.spot?_path hstart) hs
    have hplace := ((Tree.spot?_eq_some_iff hfree).mp hstart).1
    obtain ⟨hhere, -⟩ := Tree.place?_of_here hfree hplace (by decide)
    -- the texts lead from the working directory to where the names of the root do
    rw [hhere] at hlead
    have hloc := Tree.descend_filter_of_stepOf hlead
    rw [h.names_eq, descend_names_of_base? hfree hrel hroot, Option.some.injEq] at hloc
    have hsegs : ∀ seg ∈ segs, seg.NoSlash ∧ seg.goesUp = false := by
      intro seg hseg
      have hmem : seg ∈ q.segments := h.segments_eq ▸ List.mem_append_right _ hseg
      exact ⟨noSlash_of_ofText? hq seg hmem, h.goesUp_eq seg hseg⟩
    exact (keeps_segments hfree hsegs).1 s' ⟨hs', hloc ▸ List.suffix_refl _⟩ s hmem
  · cases hs

/-- **What a pattern behind a literal root finds** is further down than the root. -/
theorem inside_of_mem_assets {found : List Path} (hfree : t.LinkFree)
    (hroot : t.base? root = some loc) (hdir : t.isDirectoryAt loc = true)
    (hfound : (Source.glob pattern).assets t root = .ok found) (hp : p ∈ found) :
    t.Inside loc p := by
  rw [Source.assets, assets] at hfound
  split at hfound
  · cases hfound
  · next q hq =>
    split at hfound
    · cases hfound
      cases hp
    · cases hfound
      obtain ⟨s, hs, rfl⟩ := List.mem_map.mp hp
      obtain ⟨hspot, hfile⟩ := List.mem_filter.mp hs
      rw [Bool.and_eq_true, Tree.isFileSpot] at hfile
      have hwithin := within_of_mem_spots hrel hliteral hpattern hdown hfree hroot hq hspot
      obtain ⟨names, hnames⟩ := hwithin.below
      refine ⟨names, ?_, ?_⟩
      · rintro rfl
        -- the root is a directory, and what is found is a file
        rw [← hnames, List.nil_append, Tree.isDirectoryAt_iff.mp hdir] at hfile
        cases hfile.1
      · rw [hnames]
        exact ((Tree.spot?_eq_some_iff hfree).mp hwithin.spot_eq).1

end

end Glob

/-- **Patterns stay inside the root**: what a pattern adds to the collected assets is below the
root, if the root is literal and the pattern is relative and does not go up. -/
theorem glob_inside {sources : List Source} {ps : List Path} (hfree : t.LinkFree)
    (hrel : root.isAbsolute = false) (hroot : t.base? root = some loc)
    (hdir : t.isDirectoryAt loc = true) (hliteral : root.Literal)
    (hpattern : (Path.ofText pattern).isAbsolute = false) (hdown : Glob.StaysDown pattern)
    (hsource : .glob pattern ∈ sources) (hcollect : collect t root sources = .ok ps) :
    ∃ found, (Source.glob pattern).assets t root = .ok found ∧
      ∀ p ∈ found, t.Inside loc p ∧ ∃ q ∈ ps, p.same q = true := by
  obtain ⟨read, hread, rfl⟩ := collect_eq_ok_iff.mp hcollect
  obtain ⟨found, hfound⟩ : ∃ found, (Source.glob pattern).assets t root = .ok found :=
    exists_collect_singleton_iff.mp (exists_collect_iff.mp ⟨_, hcollect⟩ _ hsource)
  refine ⟨found, hfound, fun p hp => ⟨?_, ?_⟩⟩
  · exact Glob.inside_of_mem_assets hrel hliteral hpattern hdown hfree hroot hdir hfound hp
  · exact Path.exists_mem_arrange_iff.mpr ⟨p, List.mem_flatten.mpr
      ⟨found, mem_of_forall₂_ok hread hsource hfound, hp⟩, p.same_refl⟩

namespace Bracketed

/-! ## 4. A root with brackets -/

def bracketed : Name :=
  Utf8.encode "[ab]"

def folder : Name :=
  Utf8.encode "a"

def leaf : Name :=
  Utf8.encode "X.enum.toml"

/-- A directory whose name is a set of characters, and one whose name is one of them, with an
asset. -/
def tree : Tree where
  nodes := [([bracketed], .directory), ([folder], .directory), ([leaf, folder], .file [])]
  nodup := by decide
  closed := by
    intro loc hloc
    simp only [List.map_cons, List.map_nil, List.mem_cons, List.not_mem_nil, or_false] at hloc
    rcases hloc with rfl | rfl | rfl
    · exact ⟨by cbv, rfl⟩
    · exact ⟨by cbv, rfl⟩
    · exact ⟨by cbv, rfl⟩
  workingDirectory := []

theorem linkFree_tree : tree.LinkFree := by
  refine Tree.linkFree_of_nodes ?_
  rintro ⟨loc, node⟩ hmem target rfl
  simp [tree] at hmem

/-- A pattern for all that is in a directory. -/
def sources : List Source :=
  [.glob "*"]

def asset : Path :=
  .ofText "a/X.enum.toml"

theorem staysDown_star : Glob.StaysDown "*" := by
  have hparts : "*".toList.splitOn '/' = [['*']] := by cbv
  intro part hpart
  rw [hparts, List.mem_singleton] at hpart
  rw [hpart]
  cbv

theorem literal_folder : (Path.ofText "a").Literal := by
  refine ⟨"a", rfl, fun c hc => ?_⟩
  rw [List.mem_singleton.mp hc, Glob.IsLiteral]
  decide

theorem assets_folder : (Source.glob "*").assets tree (.ofText "a") = .ok [asset] := by
  cbv

theorem assets_bracketed : (Source.glob "*").assets tree (.ofText "[ab]") = .ok [asset] := by
  cbv

theorem collect_eq_arrange {root : Path} {found : List Path}
    (h : (Source.glob "*").assets tree root = .ok found) :
    collect tree root sources = .ok (Path.arrange found) :=
  collect_singleton_eq_ok_iff.mpr ⟨found, h, rfl⟩

/-- Behind the other root the pattern finds what is below it. -/
theorem inside_of_folder : tree.LinkFree ∧ tree.base? (.ofText "a") = some [folder] ∧
    tree.isDirectoryAt [folder] = true ∧ (Path.ofText "a").Literal ∧ Glob.StaysDown "*" ∧
      (Source.glob "*").assets tree (.ofText "a") = .ok [asset] ∧ tree.Inside [folder] asset := by
  have hbase : tree.base? (.ofText "a") = some [folder] := by cbv
  have hdir : tree.isDirectoryAt [folder] = true := by cbv
  obtain ⟨found, hfound, hinside⟩ := glob_inside linkFree_tree (by decide) hbase hdir literal_folder
    (by decide) staysDown_star List.mem_cons_self (collect_eq_arrange assets_folder)
  obtain rfl := Except.ok.inj (assets_folder.symm.trans hfound)
  exact ⟨linkFree_tree, hbase, hdir, literal_folder, staysDown_star, assets_folder,
    (hinside asset List.mem_cons_self).1⟩

/-- **A root with brackets leads elsewhere**: the pattern behind it finds an asset of another
directory. -/
theorem found_outside : ¬ ∀ (t : Tree) (root : Path) (loc : Location) (pattern : String)
    (sources : List Source) (ps : List Path), t.LinkFree → root.isAbsolute = false →
      t.place? root = some loc → t.isDirectoryAt loc = true →
        (Path.ofText pattern).isAbsolute = false → Glob.StaysDown pattern →
          .glob pattern ∈ sources → collect t root sources = .ok ps →
            ∃ found, (Source.glob pattern).assets t root = .ok found ∧
              ∀ p ∈ found, t.Inside loc p ∧ ∃ q ∈ ps, p.same q = true := by
  intro hall
  have hplace : tree.place? (.ofText "[ab]") = some [bracketed] := by cbv
  have hdir : tree.isDirectoryAt [bracketed] = true := by cbv
  have hasset : tree.place? asset = some [leaf, folder] := by cbv
  obtain ⟨found, hfound, hinside⟩ :=
    hall tree _ _ "*" sources _ linkFree_tree (by decide) hplace hdir
    (by decide) staysDown_star List.mem_cons_self (collect_eq_arrange assets_bracketed)
  obtain rfl := Except.ok.inj (assets_bracketed.symm.trans hfound)
  obtain ⟨⟨names, -, hnames⟩, -⟩ := hinside asset List.mem_cons_self
  -- the location of what is found ends with the other name
  have hends := congrArg List.getLast? (Option.some.inj (hasset.symm.trans hnames))
  rw [List.getLast?_append_of_ne_nil _ (List.cons_ne_nil _ _)] at hends
  exact absurd hends (by decide)

end Bracketed
end EnumAssets
