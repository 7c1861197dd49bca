/-
# What a run does to the assets it reads

A run writes only where the file of one of its jobs has its place.  So an asset keeps its content
unless a job puts its code there (`Overwritten`), and nothing rules that out: with an extension such
as `enum.toml` an asset can be its own file (`overwritten_input`).

Such an extension is the only way to lose an asset that is named like one.  Paths to one file end
with one name, so if no file of the extension has the ending of assets (`Config.Apart`), no file of
a job is an asset.
-/
import EnumAssets.Proofs.Command.Batch
import EnumAssets.Proofs.Tree.Name
import Mathlib.Data.List.Infix

namespace EnumAssets

/-! ## 1. Extensions that set files apart -/

/-- Whether no name with the extension has the ending of assets. -/
def Config.Apart (c : Config) : Prop :=
  ∀ name : String, ¬ assetSuffix.toList <:+ (name ++ "." ++ c.extension).toList

/-- There are two extensions that are a part of the ending of assets; the others that do not set
files apart have this ending themselves. -/
theorem Config.apart_iff {c : Config} : c.Apart ↔
    c.extension ≠ "toml" ∧ c.extension ≠ "enum.toml" ∧
      ¬ assetSuffix.toList <:+ c.extension.toList := by
  have hlist (name : String) :
      (name ++ "." ++ c.extension).toList = name.toList ++ '.' :: c.extension.toList := by
    rw [String.toList_append, String.toList_append, List.append_assoc]
    rfl
  constructor
  · intro h
    refine ⟨fun hext => ?_, fun hext => ?_, fun hsuffix => ?_⟩
    · exact h ".enum" (by rw [hlist, hext]; decide)
    · exact h "" (by rw [hlist, hext]; decide)
    · refine h "" ?_
      rw [hlist]
      exact hsuffix.trans (List.suffix_cons _ _)
  · rintro ⟨htoml, henum, hsuffix⟩ name h
    rw [hlist] at h
    rcases List.suffix_or_suffix_of_suffix h (List.suffix_append _ _) with hshort | hlong
    · rcases List.suffix_cons_iff.mp hshort with heq | hshort
      · exact henum (String.toList_inj.mp (List.cons.inj heq).2.symm)
      · exact hsuffix hshort
    · have htails : '.' :: c.extension.toList ∈ assetSuffix.toList.tails :=
        (List.mem_tails _ _).mpr hlong
      have hcases : c.extension.toList = "toml".toList ∨
          c.extension.toList = "enum.toml".toList := by
        simpa [assetSuffix, or_comm] using htails
      rcases hcases with hext | hext
      · exact htoml (String.toList_inj.mp hext)
      · exact henum (String.toList_inj.mp hext)

theorem Asset.exists_content?_of_load {t : Tree} {p : Path} {asset : Asset}
    (h : Asset.load t p = .ok asset) : ∃ content, t.content? p = some content := by
  rw [Asset.load, Tree.text?] at h
  cases hcontent : t.content? p with
  | none =>
    rw [hcontent] at h
    cases h
  | some content => exact ⟨content, rfl⟩

/-- **Files that are set apart** are not at the place of an asset. -/
theorem Config.Apart.place?_ne {t : Tree} {config : Config} (h : config.Apart) (hfree : t.LinkFree)
    {p : Path} {loc : Location} (hasset : p.isAsset = true) (hp : t.place? p = some loc)
    (hdir : t.isDirectoryAt loc = false) (q : Path) (name : String) :
    (⟨q, config.extension⟩ : Destination).place? t name ≠ some loc := by
  intro hq
  obtain ⟨path, hpath, hplace⟩ := Option.bind_eq_some_iff.mp hq
  obtain ⟨directory, -, rfl⟩ := Option.map_eq_some_iff.mp hpath
  obtain ⟨n, hname, hn⟩ := Tree.exists_fileName_suffix hfree hp hplace hdir
  rw [Path.isAsset, hname, Option.any_some, Bool.and_eq_true, List.isSuffixOf_iff_suffix] at hasset
  have hslash : Path.slash ∉ Utf8.encode assetSuffix := fun hmem =>
    absurd ((@Utf8.mem_encode_iff assetSuffix '/' (by decide)).mp hmem) (by decide)
  have hascii : ∀ c ∈ assetSuffix.toList, c.toNat < 128 := by simp [assetSuffix]
  exact h name (Utf8.suffix_of_encode_suffix hascii
    (Path.suffix_of_suffix_join hslash (hasset.2.trans hn)))

namespace Command

variable {t : Tree} {p : Path} {content : Bytes}

/-! ## 2. Files that are overwritten -/

/-- **A file that is overwritten**: the run generates files, the path of the file of one of its jobs
leads to the same place, and the code of the job is there. -/
inductive Overwritten (t t' : Tree) (p : Path) : Request → Prop where
  | intro {args : Arguments} {config : Config} {files : List Path} {jobs : List Job} {job : Job}
      {code : String} (hcheck : args.check = false) (hloads : Loads t args config files jobs)
      (hmem : job ∈ jobs) (hcode : job.code? = some code) (hplace : job.place? t' = t'.place? p)
      (hcontent : t'.content? p = some (Utf8.encode code)) : Overwritten t t' p (.run args)

/-- A run leaves the tree as it was, or goes through its jobs and writes their files. -/
theorem tree_perform_cases (t : Tree) (asked : Option Threshold) (request : Request) :
    (perform t asked request).tree = t ∨ ∃ args config files jobs, request = .run args ∧
      args.check = false ∧ Loads t args config files jobs ∧
        (perform t asked request).tree = (goThrough false t jobs).tree := by
  cases request with
  | run args =>
    cases hcheck : args.check with
    | true => exact Or.inl (tree_of_check hcheck)
    | false =>
      by_cases hloads : ∃ config files jobs, Loads t args config files jobs
      · obtain ⟨config, files, jobs, h⟩ := hloads
        refine Or.inr ⟨args, config, files, jobs, rfl, hcheck, h, ?_⟩
        rw [h.tree_eq, hcheck]
      · push Not at hloads
        exact Or.inl (stops_of_not_loads hloads).2.1
  | shortHelp => exact Or.inl rfl
  | longHelp => exact Or.inl rfl
  | version => exact Or.inl rfl
  | unreadable => exact Or.inl rfl

/-- A run makes no link. -/
theorem linkFree_perform (asked : Option Threshold) (request : Request) (hfree : t.LinkFree) :
    (perform t asked request).tree.LinkFree := by
  rcases tree_perform_cases t asked request with htree | ⟨-, -, -, jobs, -, -, -, htree⟩
  · rwa [htree]
  · rw [htree]
    exact (leaves_goThrough hfree).keeps.linkFree hfree

/-- **A file keeps its content, or it is overwritten.** -/
theorem content?_eq_or_overwritten (asked : Option Threshold) (request : Request)
    (hfree : t.LinkFree) (hcontent : t.content? p = some content) :
    (perform t asked request).tree.content? p = some content ∨
      Overwritten t (perform t asked request).tree p request := by
  rcases tree_perform_cases t asked request with
    htree | ⟨args, config, files, jobs, rfl, hcheck, hloads, htree⟩
  · rw [htree]
    exact Or.inl hcontent
  · obtain ⟨loc, hplace, hat⟩ := Tree.content?_eq_some_iff.mp hcontent
    have hleaves := @leaves_goThrough jobs t hfree
    rw [← htree] at hleaves
    have hplace' := hleaves.keeps.place?_eq_some hfree hplace
    have hleft := hleaves.left loc
    split at hleft
    · next code hlast =>
      obtain ⟨job, hmem, hjob, hcode⟩ := exists_of_lastCode?_eq_some hlast
      exact Or.inr (.intro hcheck hloads (List.mem_of_mem_take hmem) hcode
        (hjob.trans hplace'.symm) (Tree.content?_eq_some_iff.mpr ⟨loc, hplace', hleft⟩))
    · exact Or.inl (Tree.content?_eq_some_iff.mpr ⟨loc, hplace', hleft.at?_eq_some hat⟩)

/-- What is overwritten has no name of an asset, if files are set apart. -/
theorem Overwritten.isAsset_eq_false {t' : Tree} {request : Request}
    (h : Overwritten t t' p request) (hfree : t'.LinkFree)
    (hapart : ∀ args config, request = .run args → loadConfig t args = .ok config → config.Apart) :
    p.isAsset = false := by
  cases h with
  | @intro args config files jobs job code hcheck hloads hmem hcode hplace hcontent =>
    obtain ⟨loc, hloc, hat⟩ := Tree.content?_eq_some_iff.mp hcontent
    have hdir : t'.isDirectoryAt loc = false := by
      rw [Tree.isDirectoryAt, hat]
      rfl
    obtain ⟨q, -, hq⟩ := exists_of_mem_mapM hloads.jobs_eq job hmem
    obtain ⟨asset, -, rfl⟩ := loadJob_eq_ok_iff.mp hq
    by_contra hasset
    exact (hapart args config rfl hloads.config_eq).place?_ne hfree (by simpa using hasset)
      hloc hdir
      q asset.declaration.fileName (hplace.trans hloc)

/-- **What a run does to assets.**  In a tree without links, whatever the configuration says and
whatever is asked for, an asset keeps its content or is overwritten; and it keeps it if it is named
like an asset and the extension sets files apart. -/
theorem asset_kept_unless_overwritten {asset : Asset} (asked : Option Threshold) (request : Request)
    (hfree : t.LinkFree) (hload : Asset.load t p = .ok asset) :
    ((perform t asked request).tree.content? p = t.content? p ∨
        Overwritten t (perform t asked request).tree p request) ∧
      (p.isAsset = true →
        (∀ args config, request = .run args → loadConfig t args = .ok config → config.Apart) →
          (perform t asked request).tree.content? p = t.content? p) := by
  obtain ⟨content, hcontent⟩ := Asset.exists_content?_of_load hload
  rw [hcontent]
  have hkept := content?_eq_or_overwritten asked request hfree hcontent
  refine ⟨hkept, fun hasset hapart => ?_⟩
  rcases hkept with hkept | hover
  · exact hkept
  · rw [hover.isAsset_eq_false (linkFree_perform asked request hfree) hapart] at hasset
    cases hasset

namespace Sample

def own : Path := .ofText "A.enum.toml"

def ownArguments : Arguments := { assets := [own] }

theorem isProperName_own : isProperName own.bytes = true := by cbv

theorem isProperName_config : isProperName ownArguments.config.bytes = true := by cbv

/-- An asset whose file has the name of the asset. -/
def ownTree : Tree :=
  filesInRoot (own.bytes, Utf8.encode firstText)
    (ownArguments.config.bytes, Utf8.encode "[output]\nextension = \"enum.toml\"\n") (by decide)
    isProperName_own isProperName_config

def ownJob : Job := { jobOf own "A" with destination := ⟨own, "enum.toml"⟩ }

theorem loads_own : Loads ownTree ownArguments { extension := "enum.toml" } [own] [ownJob] := by
  have htext : ownTree.text? own = some firstText := by cbv
  have hasset : Asset.ofText? firstText =
      some { header := { fileName := "A", enumName := "A" }, values := .simple ["X"] } := by cbv
  constructor
  case config_eq => cbv
  case files_eq => cbv
  case jobs_eq =>
    rw [List.mapM_cons, loadJob_eq_ok htext hasset]
    rfl

theorem failure_own : (goThrough false ownTree [ownJob]).failure = none := by
  have hready := loads_own.ready (by decide) (by decide)
  refine failure_eq_none_of_canWrite linkFree_filesInRoot hready fun j hj _ => ?_
  rw [List.mem_singleton.mp hj]
  cbv

set_option maxRecDepth 20000 in
theorem passes_own : ∀ j ∈ [ownJob], j.Passes := by
  intro j hj
  rw [List.mem_singleton.mp hj, Job.passes_iff]
  decide

/-- The asset is not what it was. -/
theorem content?_own_ne :
    (perform ownTree none (.run ownArguments)).tree.content? own ≠ ownTree.content? own := by
  have hdelivered : Delivered (perform ownTree none (.run ownArguments)).tree [ownJob] :=
    loads_own.delivered linkFree_filesInRoot rfl failure_own passes_own
  obtain ⟨code, hcode, p, hp, hcontent⟩ := hdelivered.own [] ownJob [] rfl
    (fun k hk => absurd hk List.not_mem_nil)
  have hpath : ownJob.destination.path? "A" = some own := by decide
  obtain rfl : p = own := Option.some.inj (hp.symm.trans hpath)
  have hdeclaration : ownJob.declaration = (jobOf first "A").declaration := rfl
  rw [Job.code?, hdeclaration, ← Job.code?, code?_first] at hcode
  obtain rfl := Option.some.inj hcode
  have hbefore : ownTree.content? own = some (Utf8.encode firstText) := by cbv
  rw [hcontent, hbefore]
  decide

/-- **A run can overwrite an asset that it has read.** -/
theorem overwritten_input :
    ¬ ∀ (t : Tree) (asked : Option Threshold) (args : Arguments) (config : Config)
      (files : List Path) (jobs : List Job), t.LinkFree → Loads t args config files jobs →
      ∀ p ∈ files, (perform t asked (.run args)).tree.content? p = t.content? p := by
  intro h
  exact content?_own_ne (h ownTree none ownArguments _ _ _ linkFree_filesInRoot loads_own own
    List.mem_cons_self)

/-- An asset is kept if files are set apart; the asset with the name of its file is overwritten. -/
theorem kept_and_overwritten :
    (tree.LinkFree ∧ (∃ asset, Asset.load tree first = .ok asset) ∧ first.isAsset = true ∧
      (perform tree none (.run arguments)).tree.content? first = tree.content? first) ∧
    (ownTree.LinkFree ∧ (∃ asset, Asset.load ownTree own = .ok asset) ∧
      Overwritten ownTree (perform ownTree none (.run ownArguments)).tree own
        (.run ownArguments)) := by
  have hfree : ownTree.LinkFree := linkFree_filesInRoot
  constructor
  · obtain ⟨asset, hload, -⟩ := loadJob_eq_ok_iff.mp loadJob_first
    have hasset : first.isAsset = true := by cbv
    have hkept := (asset_kept_unless_overwritten none (.run arguments) linkFree_tree hload).2 hasset
    refine ⟨linkFree_tree, ⟨asset, hload⟩, hasset, hkept fun args config hargs hconfig => ?_⟩
    cases hargs
    obtain rfl := Except.ok.inj (loads_tree.config_eq.symm.trans hconfig)
    exact Config.apart_iff.mpr (by decide)
  · obtain ⟨q, hq, hjob⟩ := exists_of_mem_mapM loads_own.jobs_eq ownJob List.mem_cons_self
    obtain ⟨asset, hload, -⟩ := loadJob_eq_ok_iff.mp hjob
    obtain rfl := List.mem_singleton.mp hq
    have hover := (asset_kept_unless_overwritten none (.run ownArguments) hfree hload).1
    exact ⟨hfree, ⟨asset, hload⟩, hover.resolve_left content?_own_ne⟩

end Sample
end Command
end EnumAssets
