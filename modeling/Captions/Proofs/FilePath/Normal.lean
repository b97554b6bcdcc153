import Captions.FilePath
import Captions.Proofs.Text.Pieces
import Captions.Value

/-!
# Paths That Are Written and Read

What reading a path makes of it, and what is left when it is written again.

Reading drops the names that say nothing, so a path that was read has a root of
at most two slashes and names without slashes, none of them empty or a dot. A
path of this form comes back when it is written and read. It follows that
writing and reading once more changes nothing, and that what is written depends
on what was read and not on how it had been spelled.

A path is hardly ever written as a blank text. A root is written with slashes,
several names with slashes between them, and no name at all as a dot, and these
are not blank. What remains is a single name that is blank itself.

## Main definitions

* `Normal`: What reading makes of a path.
* `BlankName`: A name of blanks.

## Theorems

* `ofText_text`: A path in normal form is read as it was written.
* `ofText_text_ofText`: Reading a path that was read and written changes nothing.
* `text_ne_nil`: A path is never written as nothing.
* `ofText_of_blankName`: A blank name is a path of its own.
* `isAllBlank_text_iff`: Which paths are written as blank texts.
-/

namespace Captions

namespace FilePath

theorem isName_iff (piece : Text) : isName piece = true ↔ piece ≠ [] ∧ piece ≠ ['.'] := by
  rw [isName, Bool.and_eq_true, decide_eq_true_eq, decide_eq_true_eq]

/-- A path with a root and names as reading makes them. -/
structure Normal (p : FilePath) : Prop where
  /-- The root has at most two slashes. -/
  root : p.root = [] ∨ p.root = "/" ∨ p.root = "//"
  /-- The names say something. -/
  names : ∀ n ∈ p.names, isName n = true
  /-- The names are between slashes. -/
  noSlash : ∀ n ∈ p.names, slash ∉ n

theorem rootOf_cases (t : Text) : rootOf t = [] ∨ rootOf t = "/" ∨ rootOf t = "//" := by
  unfold rootOf
  split
  · exact Or.inl rfl
  · exact Or.inr (Or.inr rfl)
  · exact Or.inr (Or.inl rfl)

theorem slash_not_mem_piece (t piece : Text) (h : piece ∈ Text.cutAt (· = slash) t) :
    slash ∉ piece := by
  intro hc
  rw [Text.cutAt_eq_splitOnP] at h
  exact absurd rfl (of_decide_eq_false (Text.mem_of_mem_splitOnP _ t piece h slash hc).2)

theorem normal_ofText (t : Text) : Normal (ofText t) where
  root := rootOf_cases t
  names _ hn := (List.mem_filter.mp hn).2
  noSlash n hn := slash_not_mem_piece t n (List.mem_filter.mp hn).1

/-! ### Written and read -/

-- What is written of the names does not begin with a slash.
theorem head?_joinWith (p : FilePath) (h : Normal p) :
    (Text.joinWith "/" p.names).head? ≠ some slash := by
  rcases hnames : p.names with _ | ⟨n, ns⟩
  · exact fun heq => nomatch heq
  · have hmem : n ∈ p.names := hnames ▸ List.mem_cons_self
    rcases n with _ | ⟨c, n⟩
    · exact absurd rfl ((isName_iff []).mp (h.names _ hmem)).1
    · have hc : c ≠ slash := fun heq => h.noSlash _ hmem (heq ▸ List.mem_cons_self)
      cases ns with
      | nil => exact fun heq => hc (Option.some.inj heq)
      | cons m ns =>
          rw [Text.joinWith_cons_cons]
          exact fun heq => hc (Option.some.inj heq)

-- A root is made of slashes.
theorem eq_slash_of_mem_root (r : Text) (hr : r = [] ∨ r = "/" ∨ r = "//") :
    ∀ c ∈ r, c = slash := by
  have hall : r.all (· = slash) = true := by rcases hr with rfl | rfl | rfl <;> rfl
  intro c hc
  exact of_decide_eq_true (List.all_eq_true.mp hall c hc)

theorem rootOf_append (r t : Text) (hr : r = [] ∨ r = "/" ∨ r = "//")
    (ht : t.head? ≠ some slash) : rootOf (r ++ t) = r := by
  have hnone : t.takeWhile (· = slash) = [] := by
    rcases t with _ | ⟨c, t⟩
    · rfl
    · have hc : ¬ c = slash := fun heq => ht (congrArg some heq)
      rw [List.takeWhile_cons_of_neg (by rwa [decide_eq_true_eq])]
  have hall : ∀ c ∈ r, decide (c = slash) = true :=
    fun c hc => decide_eq_true (eq_slash_of_mem_root r hr c hc)
  unfold rootOf
  rw [List.takeWhile_append_of_pos hall, hnone, List.append_nil]
  rcases hr with rfl | rfl | rfl <;> rfl

-- The slashes of a root have no names between them.
theorem names_append (r t : Text) (hr : ∀ c ∈ r, c = slash) :
    (ofText (r ++ t)).names = (ofText t).names := by
  induction r with
  | nil => rfl
  | cons c r ih =>
      rw [List.forall_mem_cons] at hr
      have hcut := Text.cutAt_append (· = slash) [] (r ++ t) slash
        (fun _ h => absurd h List.not_mem_nil) (decide_eq_true rfl)
      rw [List.nil_append] at hcut
      rw [List.cons_append, ofText, hr.1, hcut, List.filter_cons_of_neg (by decide)]
      exact ih hr.2

theorem names_joinWith (p : FilePath) (h : Normal p) :
    (ofText (Text.joinWith "/" p.names)).names = p.names := by
  by_cases hnil : p.names = []
  · rw [hnil]
    rfl
  · rw [ofText, show ("/" : Text) = [slash] from rfl,
      Text.cutAt_joinWith slash p.names hnil h.noSlash, List.filter_eq_self.mpr h.names]

/-- A path in normal form is read as it was written. -/
theorem ofText_text (p : FilePath) (h : Normal p) : ofText p.text = p := by
  by_cases hempty : p.root = [] ∧ p.names = []
  · rw [text, if_pos hempty]
    rcases p with ⟨root, names⟩
    rcases hempty with ⟨rfl, rfl⟩
    decide
  · have hroot := rootOf_append p.root _ h.root (head?_joinWith p h)
    have hslashes := eq_slash_of_mem_root p.root h.root
    have hnames := (names_append p.root _ hslashes).trans (names_joinWith p h)
    rw [text, if_neg hempty]
    calc ofText (p.root ++ Text.joinWith "/" p.names)
        = ⟨rootOf (p.root ++ Text.joinWith "/" p.names),
            (ofText (p.root ++ Text.joinWith "/" p.names)).names⟩ := rfl
      _ = p := by rw [hroot, hnames]

/-- Reading a path that was read and written changes nothing. -/
theorem ofText_text_ofText (t : Text) : ofText (ofText t).text = ofText t :=
  ofText_text _ (normal_ofText t)

/-- A path is never written as nothing. -/
theorem text_ne_nil (t : Text) : (ofText t).text ≠ [] := by
  intro hnil
  have hdot : ofText t = ofText [] := by rw [← hnil, ofText_text_ofText]
  rw [hdot] at hnil
  exact absurd hnil (by decide)

-- So it counts as given where it is a setting.
theorem isSet_text (t : Text) : (Value.text (ofText t).text).isSet = true := by
  rw [Value.isSet, Bool.not_eq_true', List.isEmpty_eq_false_iff]
  exact text_ne_nil t

/-! ### Blank names -/

/-- A name of blanks, and of at least one. -/
def BlankName (n : Text) : Prop := n ≠ [] ∧ Text.isAllBlank n = true

theorem slash_not_mem_of_isAllBlank (t : Text) (h : Text.isAllBlank t = true) : slash ∉ t := by
  intro hc
  exact absurd (List.all_eq_true.mp h slash hc) (by decide)

theorem text_name (n : Text) : text ⟨[], [n]⟩ = n := by
  rw [text, if_neg (fun h => absurd h.2 (List.cons_ne_nil _ _)), Text.joinWith,
    List.intercalate_singleton, List.nil_append]

/-- A blank name is a path of its own. -/
theorem ofText_of_blankName (n : Text) (h : BlankName n) : ofText n = ⟨[], [n]⟩ := by
  have hslash := slash_not_mem_of_isAllBlank n h.2
  have hdot : n ≠ ['.'] := by
    rintro rfl
    exact absurd h.2 (by decide)
  have hnormal : Normal ⟨[], [n]⟩ := ⟨Or.inl rfl,
    List.forall_mem_singleton.mpr ((isName_iff n).mpr ⟨h.1, hdot⟩),
    List.forall_mem_singleton.mpr hslash⟩
  have hread := ofText_text _ hnormal
  rwa [text_name] at hread

/-- A path is written as a blank text only if it is a single blank name. -/
theorem isAllBlank_text_iff (t : Text) :
    Text.isAllBlank (ofText t).text = true ↔ ∃ n, BlankName n ∧ ofText t = ofText n := by
  constructor
  · intro h
    exact ⟨(ofText t).text, ⟨text_ne_nil t, h⟩, (ofText_text_ofText t).symm⟩
  · rintro ⟨n, hblank, heq⟩
    rw [heq, ofText_of_blankName n hblank, text_name]
    exact hblank.2

end FilePath

end Captions
