/-
# Plain text in patterns

A segment that is plain text is put behind a path as it is, so it matters that it has no slash: then
it is one step (`noSlash_of_ofText?`).  The characters of a pattern that stand for themselves come
from its text (`mem_of_tokens?`), and the segments are read from the stretches between the slashes.

Characters without a meaning of their own (`IsLiteral`) make plain text, so a pattern with such text
in front of a slash begins with the segments that the text says (`segments_behind_literal`).
-/
import EnumAssets.Glob.Pattern
import EnumAssets.Proofs.Path.Parent

namespace EnumAssets.Glob

/-! ## 1. Characters that stand for themselves -/

theorem closeSet?_subset {first : Char} {rest after : List Char} {ms : List Member}
    (h : closeSet? first rest = some (ms, after)) : after ⊆ rest := by
  rw [closeSet?] at h
  split at h
  · next c more hdrop =>
    cases h
    exact fun x hx => List.mem_of_mem_drop (hdrop ▸ List.mem_cons_of_mem c hx)
  · cases h

/-- A token in front of others comes from the text as they do. -/
theorem mem_of_map_cons {c : Char} {first : Token} {rest : Option (List Token)}
    {after cs : List Char}
    {ts : List Token} (ih : ∀ {us}, rest = some us → .char c ∈ us → c ∈ after) (hsub : after ⊆ cs)
    (hfirst : first = .char c → c ∈ cs) (h : rest.map (first :: ·) = some ts)
    (hc : .char c ∈ ts) : c ∈ cs := by
  obtain ⟨us, hus, rfl⟩ := Option.map_eq_some_iff.mp h
  rcases List.mem_cons.mp hc with hfront | hback
  · exact hfirst hfront.symm
  · exact hsub (ih hus hback)

/-- **A character that stands for itself** is one of the text. -/
theorem mem_of_tokens? {c : Char} {atStart : Bool} {cs : List Char} {ts : List Token}
    (h : tokens? atStart cs = some ts) (hc : .char c ∈ ts) : c ∈ cs := by
  fun_induction tokens? atStart cs generalizing ts with
  | case1 atStart =>
    cases h
    cases hc
  | case2 atStart rest ih =>
    refine mem_of_map_cons ih (List.subset_cons_self _ _) ?_ h hc
    exact nofun
  | case4 =>
    cases h
    cases List.mem_singleton.mp hc
  | case6 rest ih =>
    refine mem_of_map_cons ih (fun x hx => ?_) ?_ h hc
    · exact List.mem_cons_of_mem _ (List.mem_cons_of_mem _ (List.mem_cons_of_mem _ hx))
    · exact nofun
  | case9 atStart rest _ _ _ _ ih =>
    refine mem_of_map_cons ih (List.subset_cons_self _ _) ?_ h hc
    exact nofun
  | case10 atStart first rest ms after hset ih =>
    refine mem_of_map_cons ih (fun x hx => ?_) ?_ h hc
    · exact List.mem_cons_of_mem _ (List.mem_cons_of_mem _ (List.mem_cons_of_mem _
        (closeSet?_subset hset hx)))
    · exact nofun
  | case13 atStart first rest _ _ ms after hset ih =>
    refine mem_of_map_cons ih (fun x hx => ?_) ?_ h hc
    · exact List.mem_cons_of_mem _ (List.mem_cons_of_mem _ (closeSet?_subset hset hx))
    · exact nofun
  | case16 atStart first rest _ _ _ _ _ _ _ _ _ _ ih =>
    refine mem_of_map_cons ih (List.subset_cons_self _ _) (fun heq => ?_) h hc
    cases heq
    exact List.mem_cons_self
  | _ => cases h

/-- What is read of a list is read of its elements. -/
theorem exists_of_mapM_eq_some {α β : Type} {f : α → Option β} : ∀ {as : List α} {bs : List β},
    as.mapM f = some bs → ∀ b ∈ bs, ∃ a ∈ as, f a = some b
  | [], bs, h => by
    cases h
    exact nofun
  | a :: as, bs, h => by
    rw [List.mapM_cons] at h
    simp only [Option.bind_eq_bind, Option.bind_eq_some_iff, Option.pure_def,
      Option.some.injEq] at h
    obtain ⟨first, hfirst, others, hothers, rfl⟩ := h
    intro b hb
    rcases List.mem_cons.mp hb with rfl | hb
    · exact ⟨a, List.mem_cons_self, hfirst⟩
    · obtain ⟨a', ha', hread⟩ := exists_of_mapM_eq_some hothers b hb
      exact ⟨a', List.mem_cons_of_mem _ ha', hread⟩

/-- Tokens that are all characters spell these characters. -/
theorem mem_of_mapM_char? {ts : List Token} {cs : List Char} (h : ts.mapM Token.char? = some cs)
    {c : Char} (hc : c ∈ cs) : .char c ∈ ts := by
  obtain ⟨t, ht, hchar⟩ := exists_of_mapM_eq_some h c hc
  cases t <;> cases hchar
  exact ht

/-! ## 2. Segments -/

/-- Whether a segment has no slash, if it is plain text. -/
def Segment.NoSlash (seg : Segment) : Prop :=
  ∀ cs, seg = .text cs → '/' ∉ cs

theorem Segment.noSlash_ofTokens {ts : List Token} (h : .char '/' ∉ ts) :
    (Segment.ofTokens ts).NoSlash := by
  intro cs htext hmem
  rw [ofTokens] at htext
  split at htext
  · cases htext
  · split at htext
    · next cs' hcs =>
      cases htext
      exact h (mem_of_mapM_char? hcs hmem)
    · cases htext

theorem noSlash_of_mem_stretches {cs part : List Char} (h : part ∈ stretches cs) : '/' ∉ part := by
  rw [stretches] at h
  split at h
  · exact Path.not_mem_of_mem_splitOn ((List.dropLast_sublist _).subset h)
  · exact Path.not_mem_of_mem_splitOn h

theorem mem_of_mem_collapse {seg : Segment} {segs : List Segment} (h : seg ∈ collapse segs) :
    seg ∈ segs := by
  fun_induction collapse segs with
  | case1 rest ih => exact List.mem_cons_of_mem _ (ih h)
  | case2 first rest _ ih =>
    rcases List.mem_cons.mp h with rfl | h
    · exact List.mem_cons_self
    · exact List.mem_cons_of_mem _ (ih h)
  | case3 => exact h

/-- Each segment is read from one stretch of the text. -/
theorem noSlash_of_mapM {parts : List (List Char)} {segs : List Segment}
    (hparts : ∀ part ∈ parts, '/' ∉ part)
    (h : parts.mapM (fun part => (tokens? true part).map Segment.ofTokens) = some segs) :
    ∀ seg ∈ segs, seg.NoSlash := by
  intro seg hseg
  obtain ⟨part, hpart, hread⟩ := exists_of_mapM_eq_some h seg hseg
  obtain ⟨ts, hts, rfl⟩ := Option.map_eq_some_iff.mp hread
  exact Segment.noSlash_ofTokens fun hslash => hparts part hpart (mem_of_tokens? hts hslash)

/-- **No plain text of a pattern has a slash.** -/
theorem noSlash_of_ofText? {text : String} {p : Pattern} (h : Pattern.ofText? text = some p) :
    ∀ seg ∈ p.segments, seg.NoSlash := by
  simp only [Pattern.ofText?, Option.bind_eq_bind, Option.bind_eq_some_iff, Option.pure_def,
    Option.some.injEq] at h
  obtain ⟨ts, -, segs, hsegs, rfl⟩ := h
  intro seg hseg
  dsimp only at hseg
  generalize (if (text.toList.head? == some '/') = true then text.toList.drop 1 else text.toList) =
    relative at hsegs hseg
  split at hseg
  · rintro cs rfl
    cases List.mem_singleton.mp hseg
    exact List.not_mem_nil
  · exact noSlash_of_mapM (fun part => noSlash_of_mem_stretches) hsegs seg
      (mem_of_mem_collapse hseg)

/-! ## 3. Literal text -/

/-- Whether a character stands for itself wherever it is in a pattern. -/
def IsLiteral (c : Char) : Prop :=
  c ≠ '?' ∧ c ≠ '*' ∧ c ≠ '['

theorem tokens?_of_literal : ∀ {cs : List Char} {atStart : Bool}, (∀ c ∈ cs, IsLiteral c) →
    tokens? atStart cs = some (cs.map .char)
  | [], _, _ => by
    rw [tokens?, List.map_nil]
  | c :: cs, _, h => by
    obtain ⟨hany, hrun, hset⟩ := h c List.mem_cons_self
    have ih : tokens? (c == '/') cs = some (cs.map .char) :=
      tokens?_of_literal fun d hd => h d (List.mem_cons_of_mem _ hd)
    rw [tokens?, ih, Option.map_some, List.map_cons]
    -- the cases in front of this one begin with a character that has a meaning
    all_goals simp_all

/-- The segment that a stretch between slashes spells. -/
def segment? (part : List Char) : Option Segment :=
  (tokens? true part).map Segment.ofTokens

/-- **Literal text is a segment of plain text.** -/
theorem segment?_of_literal {part : List Char} (h : ∀ c ∈ part, IsLiteral c) :
    segment? part = some (.text part) := by
  have hchars : (part.map Token.char).mapM Token.char? = some part := by
    induction part with
    | nil => rfl
    | cons c part ih =>
      rw [List.map_cons, List.mapM_cons, ih fun d hd => h d (List.mem_cons_of_mem _ hd)]
      rfl
  have hne : part.map Token.char ≠ [.anyDirectories] := by
    cases part <;> simp
  rw [segment?, tokens?_of_literal h, Option.map_some, Segment.ofTokens, if_neg hne, hchars]

/-- Stretches of literal text are read as plain text in front of the others. -/
theorem mapM_segment?_append {more : List (List Char)} {segs : List Segment} :
    ∀ {parts : List (List Char)}, (∀ part ∈ parts, ∀ c ∈ part, IsLiteral c) →
      (parts ++ more).mapM segment? = some segs →
        ∃ back, more.mapM segment? = some back ∧ segs = parts.map .text ++ back
  | [], _, h => ⟨segs, h, rfl⟩
  | part :: parts, hparts, h => by
    rw [List.cons_append, List.mapM_cons, segment?_of_literal (hparts part List.mem_cons_self)] at h
    simp only [Option.bind_eq_bind, Option.bind_some, Option.bind_eq_some_iff, Option.pure_def,
      Option.some.injEq] at h
    obtain ⟨others, hothers, rfl⟩ := h
    obtain ⟨back, hback, rfl⟩ := mapM_segment?_append
      (fun part' hpart => hparts part' (List.mem_cons_of_mem _ hpart)) hothers
    exact ⟨back, hback, rfl⟩

/-- Plain text is not collapsed. -/
theorem collapse_texts (back : List Segment) : ∀ parts : List (List Char),
    collapse (parts.map .text ++ back) = parts.map .text ++ collapse back
  | [] => rfl
  | part :: parts => by
    rw [List.map_cons, List.cons_append, collapse, collapse_texts back parts, List.cons_append]
    exact nofun

/-- A slash parts the stretches in front of it from those behind it. -/
theorem stretches_append (front back : List Char) :
    stretches (front ++ '/' :: back) = front.splitOn '/' ++ stretches back := by
  have hne := List.splitOn_ne_nil '/' back
  rw [stretches, stretches, List.splitOn_append_cons_self, List.getLast?_append_of_ne_nil _ hne,
    List.dropLast_append_of_ne_nil hne]
  split <;> rfl

theorem mem_splitOn_of_mem_stretches {cs part : List Char} (h : part ∈ stretches cs) :
    part ∈ cs.splitOn '/' := by
  rw [stretches] at h
  split at h
  · exact (List.dropLast_sublist _).subset h
  · exact h

/-- What a relative pattern is read from: its stretches, and nothing if it is empty. -/
theorem ofText?_relative {text : String} {p : Pattern} (hhead : text.toList.head? ≠ some '/')
    (h : Pattern.ofText? text = some p) : p.absolute = false ∧
      (p.segments = [.text []] ∧ text.toList = [] ∨
        ∃ segs, (stretches text.toList).mapM segment? = some segs ∧
          p.segments = collapse segs) := by
  have habs : (text.toList.head? == some '/') = false := beq_eq_false_iff_ne.mpr hhead
  simp only [Pattern.ofText?, Option.bind_eq_bind, Option.bind_eq_some_iff, Option.pure_def,
    Option.some.injEq, habs, Bool.false_eq_true, if_false] at h
  obtain ⟨ts, -, segs, hsegs, rfl⟩ := h
  refine ⟨rfl, ?_⟩
  dsimp only
  split
  · next hempty => exact Or.inl ⟨rfl, List.isEmpty_iff.mp hempty⟩
  · exact Or.inr ⟨segs, hsegs, rfl⟩

/-- **Each segment of a relative pattern** is read from what lies between two slashes. -/
theorem exists_part_of_mem_segments {text : String} {p : Pattern}
    (hhead : text.toList.head? ≠ some '/') (h : Pattern.ofText? text = some p) :
    ∀ seg ∈ p.segments, ∃ part ∈ text.toList.splitOn '/', segment? part = some seg := by
  intro seg hseg
  obtain ⟨-, ⟨hsegs, hnil⟩ | ⟨segs, hread, hsegs⟩⟩ := ofText?_relative hhead h
  · rw [hsegs, List.mem_singleton] at hseg
    rw [hseg, hnil]
    exact ⟨[], List.mem_singleton_self _, segment?_of_literal nofun⟩
  · rw [hsegs] at hseg
    obtain ⟨part, hpart, hread⟩ := exists_of_mapM_eq_some hread seg (mem_of_mem_collapse hseg)
    exact ⟨part, mem_splitOn_of_mem_stretches hpart, hread⟩

/-- **Literal text in front of a slash** is plain text in front of the segments behind the slash. -/
theorem segments_behind_literal {text : String} {p : Pattern} {front back : List Char}
    (hfront : ∀ c ∈ front, IsLiteral c) (htext : text.toList = front ++ '/' :: back)
    (hhead : text.toList.head? ≠ some '/') (h : Pattern.ofText? text = some p) :
    ∃ segs, p.segments = (front.splitOn '/').map .text ++ segs ∧
      ∀ seg ∈ segs, ∃ part ∈ back.splitOn '/', segment? part = some seg := by
  have hparts : ∀ part ∈ front.splitOn '/', ∀ c ∈ part, IsLiteral c := fun part hpart c hc =>
    hfront c (Path.subset_of_mem_splitOn hpart hc)
  obtain ⟨-, ⟨-, hnil⟩ | ⟨segs, hread, hsegs⟩⟩ := ofText?_relative hhead h
  · rw [hnil] at htext
    exact absurd htext.symm (List.append_ne_nil_of_right_ne_nil _ (List.cons_ne_nil _ _))
  · rw [htext, stretches_append] at hread
    obtain ⟨more, hmore, rfl⟩ := mapM_segment?_append hparts hread
    refine ⟨collapse more, by rw [hsegs, collapse_texts], fun seg hseg => ?_⟩
    obtain ⟨part, hpart, hread⟩ := exists_of_mapM_eq_some hmore seg (mem_of_mem_collapse hseg)
    exact ⟨part, mem_splitOn_of_mem_stretches hpart, hread⟩

end EnumAssets.Glob
