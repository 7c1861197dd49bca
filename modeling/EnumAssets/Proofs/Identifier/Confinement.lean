/-
# Names stay in their place

A name is put between characters that mean something to whoever reads it: white space and line ends
lay out the generated text, braces and commas part its lines, dots part a namespace and slashes a
path, and a file system keeps some characters for itself.  A name with one of these in it would be
read as two names, or as the end of what is around it.

No name has one, in any script, because all of them are barred (`inert_of_mem`).  The one character
of a name that means something is the at sign, and it has no other place than the first, in front of
a reserved word (`eq_nil_of_at`): the characters of words and of reserved words are parts, and an at
sign is none.

The check of a file name asks for no more than this, and for a text that is not empty.  So every
name can be the name of a file (`fileNameDefects_of_isIdentifier`).
-/
import EnumAssets.Proofs.Declaration.Diagnosis
import EnumAssets.Proofs.Identifier.Characters

namespace EnumAssets

namespace Identifier

variable {s : String}

/-! ## 1. Characters that mean something -/

/-- The punctuation that stands between names or around them. -/
def punctuation : List Char :=
  ['.', ',', ';', '\x7b', '\x7d', '(', ')', '\'', '-']

/-- Whether a character means nothing by itself to a text, a path or a file system. -/
structure Inert (c : Char) : Prop where
  not_whiteSpace : Unicode.whiteSpace.has c = false
  not_control : Unicode.control.has c = false
  not_forbidden : c ∉ forbiddenInFileName
  not_punctuation : c ∉ punctuation

theorem barred_of_mem_forbiddenInFileName {c : Char} (h : c ∈ forbiddenInFileName) :
    barred.has c = true := by
  have hall : forbiddenInFileName.all barred.has = true := by decide
  exact List.all_eq_true.mp hall c h

theorem barred_of_mem_punctuation {c : Char} (h : c ∈ punctuation) : barred.has c = true := by
  have hall : punctuation.all barred.has = true := by decide
  exact List.all_eq_true.mp hall c h

/-- What means something is barred. -/
theorem inert_of_barred_eq_false {c : Char} (h : barred.has c = false) : Inert c := by
  have hfree : ¬ barred.has c = true := Bool.eq_false_iff.mp h
  exact {
    not_whiteSpace := Bool.eq_false_iff.mpr fun hspace => hfree (barred_of_whiteSpace hspace)
    not_control := Bool.eq_false_iff.mpr fun hcontrol => hfree (barred_of_control hcontrol)
    not_forbidden := fun hmem => hfree (barred_of_mem_forbiddenInFileName hmem)
    not_punctuation := fun hmem => hfree (barred_of_mem_punctuation hmem) }

/-- **The characters of a name** mean nothing by themselves. -/
theorem inert_of_mem (h : isIdentifier s = true) {c : Char} (hc : c ∈ s.toList) : Inert c :=
  inert_of_barred_eq_false (barred_of_mem h hc)

/-! ## 2. At signs -/

/-- **An at sign in a name** has nothing in front of it, and a reserved word behind it. -/
theorem eq_nil_of_at {front rest : List Char} (h : isIdentifier s = true)
    (hs : s.toList = front ++ '@' :: rest) :
    front = [] ∧ isReserved (String.ofList rest) = true := by
  have hmem : '@' ∈ front ++ '@' :: rest := List.mem_append_right _ List.mem_cons_self
  rcases isIdentifier_cases h with ⟨hword, -⟩ | ⟨w, hw, hreserved⟩
  · rw [hs] at hword
    exact absurd hmem (at_not_mem (isPart_of_isWord hword))
  · rw [hs] at hw
    cases front with
    | nil =>
      obtain rfl : rest = w.toList := (List.cons_inj_right '@').mp hw
      rw [String.ofList_toList]
      exact ⟨rfl, hreserved⟩
    | cons c front =>
      -- Something else in front would put the at sign into the reserved word.
      have htail : front ++ '@' :: rest = w.toList := (List.cons.inj hw).2
      have hparts := isPart_of_mem_reserved w (List.contains_iff_mem.mp hreserved)
      rw [← htail] at hparts
      exact absurd (List.mem_append_right _ List.mem_cons_self) (at_not_mem hparts)

end Identifier

/-! ## 3. Names of files -/

namespace Declaration

variable {α : Type} {d : Declaration α}

theorem allowedInFileName_of_inert {c : Char} (h : Identifier.Inert c) :
    allowedInFileName c = true := by
  rw [← Bool.not_eq_false, allowedInFileName_eq_false_iff, h.not_control]
  rintro (hcontrol | hmem)
  · cases hcontrol
  · exact h.not_forbidden hmem

/-- **A name passes the check of file names.** -/
theorem fileNameDefects_of_isIdentifier (h : Identifier.isIdentifier d.fileName = true) :
    d.fileNameDefects = [] := by
  have hne : d.fileName ≠ "" := by
    intro hempty
    rw [hempty] at h
    cases h
  have hall : d.fileName.toList.all allowedInFileName = true :=
    List.all_eq_true.mpr fun c hc => allowedInFileName_of_inert (Identifier.inert_of_mem h hc)
  rw [fileNameDefects, if_neg hne, hall]
  rfl

/-- Where the check of the file name finds nothing, the report has nothing about it either. -/
theorem lt_stage_of_mem_defects [Named α] (h : d.fileNameDefects = []) {x : Defect}
    (hx : x ∈ d.defects) : 1 < x.stage := by
  by_contra hle
  have hmem := mem_fileNameDefects.mpr ⟨mem_defects_iff.mp hx, Nat.le_of_not_lt hle⟩
  rw [h] at hmem
  cases hmem

end Declaration

/-! ## 4. The place of a name -/

namespace Identifier

/-- **Names stay in their place.**  No character of a name means anything to a text, a path or a
file system; an at sign stands at the front of it only, with a reserved word behind; and a
declaration whose file is called by a name has no defect of its file name, whatever else is wrong
with it. -/
theorem name_stays_in_place {s : String} (h : isIdentifier s = true) :
    (∀ c ∈ s.toList, Inert c) ∧
      (∀ front rest, s.toList = front ++ '@' :: rest →
        front = [] ∧ isReserved (String.ofList rest) = true) ∧
      ∀ (α : Type) [Named α] (d : Declaration α), d.fileName = s →
        d.fileNameDefects = [] ∧ .emptyFileName ∉ d.defects ∧
          ∀ n, .invalidFileName n ∉ d.defects := by
  refine ⟨fun c hc => inert_of_mem h hc, fun front rest hs => eq_nil_of_at h hs, ?_⟩
  rintro α _ d rfl
  have hnone := Declaration.fileNameDefects_of_isIdentifier h
  refine ⟨hnone, fun hempty => ?_, fun n hinvalid => ?_⟩
  · exact absurd (Declaration.lt_stage_of_mem_defects hnone hempty) (by decide)
  · exact absurd (Declaration.lt_stage_of_mem_defects hnone hinvalid) (Nat.lt_irrefl 1)

example : (["a\u200Cb", "a\u00A0b", "a@class"].map isIdentifier) = [true, false, false] := by
  decide +kernel

namespace Escaped

/-- A declaration without values, whose file is called by a reserved word with an at sign in
front. -/
def declaration : Declaration String :=
  { fileName := "@class", enumName := "" }

theorem class_stays_in_place :
    (isIdentifier "@class" = true ∧ 's' ∈ "@class".toList ∧
        "@class".toList = [] ++ '@' :: "class".toList ∧ declaration.fileName = "@class") ∧
      Inert 's' ∧ isReserved (String.ofList "class".toList) = true ∧
        declaration.fileNameDefects = [] ∧ .emptyFileName ∉ declaration.defects ∧
          .invalidFileName "@class" ∉ declaration.defects := by
  have hname : isIdentifier "@class" = true := by decide
  have hchars : "@class".toList = [] ++ '@' :: "class".toList := by decide
  have hmem : 's' ∈ "@class".toList := by decide
  obtain ⟨hplain, hat, hfile⟩ := name_stays_in_place hname
  obtain ⟨hnone, hempty, hinvalid⟩ := hfile String declaration rfl
  exact ⟨⟨hname, hmem, hchars, rfl⟩, hplain 's' hmem, (hat [] "class".toList hchars).2, hnone,
    hempty,
    hinvalid "@class"⟩

end Escaped

end Identifier
end EnumAssets
