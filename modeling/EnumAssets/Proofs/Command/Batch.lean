/-
# What a batch leaves behind

`Effect` says what a run leaves if all files lie beside their assets.  With any other extension a
file may lie elsewhere: directories are made on the way to it, and a path that led nowhere at the
start may lead to a place in the end.  So paths are read in the tree that is left (`Leaves`), where
the last code for a place is at this place, and at all other places there is what was there, or a
new directory.

A batch that succeeds has a file for each of its jobs.  It holds the code of the last job whose file
has the same place (`Delivered`), so a job keeps its own code unless a later one writes to the same
place; nothing keeps two jobs from sharing a place, and then the earlier code is lost (`lost_code`).
-/
import EnumAssets.Proofs.Command.Account

namespace EnumAssets.Command

variable {t t' t'' : Tree} {job : Job} {jobs rest : List Job} {loc : Location}

/-! ## 1. The last code for a place -/

theorem lastCode?_nil (t : Tree) (loc : Location) : lastCode? t [] loc = none := rfl

theorem lastCode?_append (t : Tree) (front back : List Job) (loc : Location) :
    lastCode? t (front ++ back) loc = (lastCode? t back loc).or (lastCode? t front loc) := by
  induction front with
  | nil => rw [List.nil_append, lastCode?_nil, Option.or_none]
  | cons job front ih => rw [List.cons_append, lastCode?_cons, ih, lastCode?_cons, Option.or_assoc]

/-- The last code for a place is that of a job. -/
theorem exists_of_lastCode?_eq_some {code : String} (h : lastCode? t jobs loc = some code) :
    ∃ j ∈ jobs, j.place? t = some loc ∧ j.code? = some code := by
  obtain ⟨j, hj, hcode⟩ := List.mem_filterMap.mp (List.mem_of_getLast? h)
  obtain ⟨hmem, hplace⟩ := List.mem_filter.mp hj
  exact ⟨j, hmem, by simpa using hplace, hcode⟩

/-- A job keeps its code at its place if every later job for the place has the same code. -/
theorem lastCode?_of_back {code : String} (front : List Job) {back : List Job}
    (hplace : job.place? t = some loc) (hcode : job.code? = some code)
    (hback : ∀ k ∈ back, k.place? t = some loc → k.code? = some code) :
    lastCode? t (front ++ job :: back) loc = some code := by
  rw [lastCode?_append, lastCode?_cons, if_pos hplace, hcode]
  cases hlast : lastCode? t back loc with
  | none => rfl
  | some later =>
    obtain ⟨k, hk, hkplace, hkcode⟩ := exists_of_lastCode?_eq_some hlast
    rw [hback k hk hkplace] at hkcode
    rw [hkcode]
    rfl

/-- There is a last code for the place of a job that has a code. -/
theorem exists_lastCode? {code : String} (hmem : job ∈ jobs) (hplace : job.place? t = some loc)
    (hcode : job.code? = some code) : ∃ last, lastCode? t jobs loc = some last := by
  obtain ⟨front, back, rfl⟩ := List.append_of_mem hmem
  rw [lastCode?_append, lastCode?_cons, if_pos hplace, hcode]
  cases lastCode? t back loc with
  | none => exact ⟨code, rfl⟩
  | some later => exact ⟨later, rfl⟩

/-! ## 2. One job -/

theorem Job.place?_eq_some_of_keeps (h : t.Keeps t') (hfree : t.LinkFree)
    (hplace : job.place? t = some loc) : job.place? t' = some loc := by
  obtain ⟨p, hp, hplace⟩ := Option.bind_eq_some_iff.mp hplace
  rw [Job.place?, Destination.place?, hp]
  exact h.place?_eq_some hfree hplace

/-- **What the turn of a job does**: nothing if it has no code, and else the tree grows and the code
is put at the place of the file. -/
theorem Judged.skipped_or_written {outcome : Outcome} (h : Judged false t job t' outcome) :
    (job.code? = none ∧ t' = t) ∨ ∃ between code own, job.code? = some code ∧ t.Grows between ∧
      job.place? between = some own ∧ between.Puts own (Utf8.encode code) t' := by
  cases h with
  | invalid hcheck => exact Or.inl ⟨by rw [Job.code?, hcheck], rfl⟩
  | valid hcheck hmode => cases hmode
  | @written c _ p hcheck hmode hwrite =>
    obtain ⟨hpath, between, own, hgrows, hplace, hputs⟩ := Destination.write_eq_ok hwrite
    rw [c.declaration_eq_of_check hcheck] at hpath
    refine Or.inr ⟨between, c.code, own, by rw [Job.code?, hcheck], hgrows, ?_, hputs⟩
    rw [Job.place?, Destination.place?, hpath]
    exact hplace

theorem Judged.keeps {outcome : Outcome} (h : Judged false t job t' outcome) : t.Keeps t' := by
  rcases h.skipped_or_written with ⟨-, rfl⟩ | ⟨between, code, own, -, hgrows, -, hputs⟩
  · exact .refl _
  · exact hgrows.keeps.trans hputs.keeps

/-! ## 3. All jobs -/

/-- **What jobs leave behind**, the paths being read in the tree that is left. -/
structure Leaves (t : Tree) (jobs : List Job) (t' : Tree) : Prop where
  /-- No directory is gone, and there are no new links. -/
  keeps : t.Keeps t'
  /-- A job with a code has a place for it. -/
  placed : ∀ j ∈ jobs, ∀ code, j.code? = some code → ∃ loc, j.place? t' = some loc
  /-- The last code for a place is there, and all else is as it was, or a new directory. -/
  left : ∀ loc,
    match lastCode? t' jobs loc with
    | some code => t'.at? loc = some (.file (Utf8.encode code))
    | none => t.GrownAt t' loc

theorem Leaves.nil (h : t.Grows t') : Leaves t [] t' :=
  ⟨h.keeps, fun _ hj => absurd hj List.not_mem_nil, h.grownAt⟩

/-- One job in front. -/
theorem Leaves.cons (h : Leaves t' rest t'') (hfree : t.LinkFree) {outcome : Outcome}
    (hjudged : Judged false t job t' outcome) : Leaves t (job :: rest) t'' := by
  rcases hjudged.skipped_or_written with
    ⟨hcode, rfl⟩ | ⟨between, code, own, hcode, hgrows, hplace, hputs⟩
  · refine ⟨h.keeps, fun j hj code hj' => ?_, fun loc => ?_⟩
    · rcases List.mem_cons.mp hj with rfl | hj
      · rw [hcode] at hj'
        cases hj'
      · exact h.placed j hj code hj'
    · rw [lastCode?_cons, hcode, ite_self, Option.or_none]
      exact h.left loc
  · have hkeeps : between.Keeps t'' := hputs.keeps.trans h.keeps
    have hown : job.place? t'' = some own :=
      Job.place?_eq_some_of_keeps hkeeps (hgrows.keeps.linkFree hfree) hplace
    refine ⟨hgrows.keeps.trans hkeeps, fun j hj code hj' => ?_, fun loc => ?_⟩
    · rcases List.mem_cons.mp hj with rfl | hj
      · exact ⟨own, hown⟩
      · exact h.placed j hj code hj'
    · have hleft := h.left loc
      rw [lastCode?_cons, hown, hcode]
      cases hlast : lastCode? t'' rest loc with
      | some later =>
        rw [hlast] at hleft
        exact hleft
      | none =>
        rw [hlast] at hleft
        by_cases hloc : loc = own
        -- the code is there, and nothing that comes later takes its place
        · rw [hloc, if_pos rfl]
          rw [hloc] at hleft
          exact hleft.at?_eq_some (by rw [hputs.at?_eq, if_pos rfl])
        · rw [if_neg fun e => hloc (Option.some.inj e).symm]
          refine (hgrows.grownAt loc).trans (Tree.GrownAt.trans (Or.inl ?_) hleft)
          rw [hputs.at?_eq, if_neg hloc]

/-- **What a run leaves behind** is what the jobs leave that were judged; those are all of them up
to the first file that cannot be written. -/
theorem leaves_goThrough : ∀ {jobs : List Job} {t : Tree}, t.LinkFree →
    Leaves t (jobs.take (goThrough false t jobs).verdicts.length) (goThrough false t jobs).tree
  | [], t, _ => .nil (.refl t)
  | job :: rest, t, hfree => by
    rcases goThrough_cons false t job rest with
      ⟨t', outcome, hjudged, hrun⟩ | ⟨c, t', f, -, -, hwrite, hrun⟩
    · rw [hrun, List.length_cons, List.take_succ_cons]
      exact (leaves_goThrough (hjudged.keeps.linkFree hfree)).cons hfree hjudged
    · rw [hrun, List.length_nil, List.take_zero]
      exact .nil (Destination.write_eq_error hwrite)

/-- A run without a failure judges all of its jobs. -/
theorem leaves_of_failure_eq_none (hfree : t.LinkFree)
    (h : (goThrough false t jobs).failure = none) :
    Leaves t jobs (goThrough false t jobs).tree := by
  have hleaves := @leaves_goThrough jobs t hfree
  rwa [← (accounts_goThrough h).length_eq, List.take_length] at hleaves

/-! ## 4. Batches that succeed -/

/-- Whether the file of a job holds a code. -/
def Job.Holds (j : Job) (t : Tree) (code : String) : Prop :=
  ∃ p, j.destination.path? j.declaration.fileName = some p ∧
    t.content? p = some (Utf8.encode code)

/-- **What is delivered** to the files of jobs. -/
structure Delivered (t : Tree) (jobs : List Job) : Prop where
  /-- A file holds the code of the last job whose file has its place. -/
  last : ∀ j ∈ jobs, ∃ loc code, j.place? t = some loc ∧ lastCode? t jobs loc = some code ∧
    j.Holds t code
  /-- A job keeps its code if no later job has another code for the same place. -/
  own : ∀ front j back, jobs = front ++ j :: back →
    (∀ k ∈ back, k.place? t = j.place? t → k.code? = j.code?) →
      ∃ code, j.code? = some code ∧ j.Holds t code

theorem Job.holds_of_place? {code : String} (hplace : job.place? t = some loc)
    (hat : t.at? loc = some (.file (Utf8.encode code))) : job.Holds t code := by
  obtain ⟨p, hp, hplace⟩ := Option.bind_eq_some_iff.mp hplace
  exact ⟨p, hp, Tree.content?_eq_some_iff.mpr ⟨loc, hplace, hat⟩⟩

theorem Job.exists_code?_of_passes (h : job.Passes) : ∃ code, job.code? = some code := by
  obtain ⟨c, hc⟩ := h
  exact ⟨c.code, by rw [Job.code?, hc]⟩

/-- Valid jobs deliver what they leave behind. -/
theorem Leaves.delivered (h : Leaves t jobs t') (hpass : ∀ j ∈ jobs, j.Passes) :
    Delivered t' jobs := by
  constructor
  case last =>
    intro j hj
    obtain ⟨code, hcode⟩ := Job.exists_code?_of_passes (hpass j hj)
    obtain ⟨loc, hplace⟩ := h.placed j hj code hcode
    obtain ⟨last, hlast⟩ := exists_lastCode? hj hplace hcode
    have hleft := h.left loc
    rw [hlast] at hleft
    exact ⟨loc, last, hplace, hlast, Job.holds_of_place? hplace hleft⟩
  case own =>
    intro front j back hjobs hback
    have hj : j ∈ jobs := by
      rw [hjobs]
      exact List.mem_append_right _ List.mem_cons_self
    obtain ⟨code, hcode⟩ := Job.exists_code?_of_passes (hpass j hj)
    obtain ⟨loc, hplace⟩ := h.placed j hj code hcode
    rw [hplace, hcode] at hback
    have hlast := lastCode?_of_back front hplace hcode hback
    have hleft := h.left loc
    rw [hjobs, hlast] at hleft
    exact ⟨code, hcode, Job.holds_of_place? hplace hleft⟩

/-- What a run delivers that loads and has no failure, if all of its jobs are valid. -/
theorem Loads.delivered {args : Arguments} {config : Config} {files : List Path}
    {asked : Option Threshold} (h : Loads t args config files jobs) (hfree : t.LinkFree)
    (hcheck : args.check = false) (hfailure : (goThrough false t jobs).failure = none)
    (hpass : ∀ j ∈ jobs, j.Passes) : Delivered (perform t asked (.run args)).tree jobs := by
  rw [h.tree_eq, hcheck]
  exact (leaves_of_failure_eq_none hfree hfailure).delivered hpass

theorem Ending.status_eq_zero_iff {e : Ending} : e.status = 0 ↔ e = .finished 0 := by
  cases e with
  | finished invalid => simp [Ending.status]
  | failed message causes => simp [Ending.status]
  | unreadable => simp [Ending.status]

/-- **A batch that succeeds delivers**: in a tree without links, whatever the configuration says,
each file holds the code of the last job for its place. -/
theorem delivered_of_success {args : Arguments} {asked : Option Threshold} (hfree : t.LinkFree)
    (hcheck : args.check = false) (hstatus : (perform t asked (.run args)).ending.status = 0) :
    ∃ config files jobs, Loads t args config files jobs ∧
      Delivered (perform t asked (.run args)).tree jobs := by
  have hending := Ending.status_eq_zero_iff.mp hstatus
  obtain ⟨config, files, jobs, h⟩ := loads_of_finished hending
  rw [h.ending_eq] at hending
  have hfailure := failure_of_ending_eq hending
  have hpass := (h.account hfailure).status_eq_zero_iff.mp hstatus
  rw [hcheck] at hfailure
  exact ⟨config, files, jobs, h, h.delivered hfree hcheck hfailure hpass⟩

namespace Sample

theorem loads_tree :
    Loads tree arguments {} [first, second] [jobOf first "A", jobOf second "B"] := by
  have hconfig : loadConfig tree arguments = .ok {} := by cbv
  have hfiles : findAssets tree arguments {} = .ok [first, second] := by cbv
  exact ⟨hconfig, hfiles, mapM_loadJob⟩

theorem failure_tree :
    (goThrough false tree [jobOf first "A", jobOf second "B"]).failure = none := by
  have hready := loads_tree.ready (by decide) (by decide)
  refine failure_eq_none_of_canWrite linkFree_tree hready fun j hj _ => ?_
  rw [List.mem_cons, List.mem_singleton] at hj
  rcases hj with rfl | rfl
  · cbv
  · cbv

set_option maxRecDepth 20000 in
theorem passes_tree : ∀ j ∈ [jobOf first "A", jobOf second "B"], j.Passes := by
  intro j hj
  rw [Job.passes_iff]
  rw [List.mem_cons, List.mem_singleton] at hj
  rcases hj with rfl | rfl
  · decide
  · decide

theorem status_tree : (perform tree none (.run arguments)).ending.status = 0 :=
  (loads_tree.account failure_tree).status_eq_zero_iff.mpr passes_tree

/-- A batch of two assets for one file succeeds, and delivers. -/
theorem delivered_second :
    tree.LinkFree ∧ arguments.check = false ∧
      (perform tree none (.run arguments)).ending.status = 0 ∧
      ∃ config files jobs, Loads tree arguments config files jobs ∧
        Delivered (perform tree none (.run arguments)).tree jobs :=
  ⟨linkFree_tree, rfl, status_tree, delivered_of_success linkFree_tree rfl status_tree⟩

set_option maxRecDepth 20000 in
theorem code?_first : (jobOf first "A").code? = some "enum A\x7b\n\tX\n\x7d\n" := by
  cbv

set_option maxRecDepth 20000 in
theorem code?_second : (jobOf second "B").code? = some "enum B\x7b\n\tX\n\x7d\n" := by
  cbv

/-- The file holds the code of the second asset. -/
theorem holds_second :
    (jobOf second "B").Holds (perform tree none (.run arguments)).tree
      "enum B\x7b\n\tX\n\x7d\n" := by
  have hdelivered : Delivered (perform tree none (.run arguments)).tree _ :=
    loads_tree.delivered linkFree_tree rfl failure_tree passes_tree
  obtain ⟨code, hcode, hholds⟩ := hdelivered.own [jobOf first "A"] (jobOf second "B") [] rfl
    (fun k hk => absurd hk List.not_mem_nil)
  rw [code?_second] at hcode
  rwa [← Option.some.inj hcode] at hholds

/-- **A batch that succeeds can lose code**: not every file holds the code of its own asset. -/
theorem lost_code :
    ¬ ∀ (t : Tree) (asked : Option Threshold) (args : Arguments) (config : Config)
      (files : List Path) (jobs : List Job), t.LinkFree → args.check = false →
      Loads t args config files jobs → (perform t asked (.run args)).ending.status = 0 →
      ∀ j ∈ jobs, ∃ code, j.code? = some code ∧
        j.Holds (perform t asked (.run args)).tree code := by
  intro h
  obtain ⟨code, hcode, p, hp, hfirst⟩ := h tree none arguments {} _ _ linkFree_tree rfl loads_tree
    status_tree (jobOf first "A") List.mem_cons_self
  obtain ⟨q, hq, hsecond⟩ := holds_second
  have hpath : (jobOf second "B").destination.path? "A" =
      (jobOf first "A").destination.path? "A" := by
    decide
  obtain rfl : q = p := Option.some.inj (hq.symm.trans (hpath.trans hp))
  rw [code?_first] at hcode
  obtain rfl := Option.some.inj hcode
  exact absurd (Option.some.inj (hfirst.symm.trans hsecond)) (by decide)

end Sample
end EnumAssets.Command
