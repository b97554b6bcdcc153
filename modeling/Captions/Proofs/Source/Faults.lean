import Captions.Proofs.Document.Faults
import Captions.Proofs.Text.Pieces

/-!
# Sources That Give No Cues

How reading a source can end.

There are two outcomes that a caller is told of besides the cues. The source may
name no file, or the file it names may give no cues, for a reason that comes
along: it cannot be had, its octets are no text, or its text is no document.
Which of the two it is depends on the source alone for the first and on the file
for the second.

Four things are not covered by that. A value that is no path is shown, and cannot
be if a number in it is too long. A path with half a character or with a null
character is refused before the file is looked for. Times whose hours are too
long are found only when their document is already read. Reading then ends in a
fault of another kind. `Reason` is what each fault says of the source and its
file, and `read_outcome` says that each comes about for this reason and for no
other, and so also that the first two are as rare as they are.

## Main definitions

* `Reference.text?`: The text that a source is judged by.
* `NotText`: A value is no text.
* `Reason`: What a fault says of the source and of its file.

## Theorems

* `FilePath.null_mem_text`: A path keeps its null characters.
* `FileTree.read_eq_nullCharacter_iff`: Which paths are refused for them.
* `content_eq_ok_iff`: When a file has a text.
* `read_cases`: The stages of reading a source.
* `read_reason`: A fault has its reason.
* `read_outcome`: How reading a source ends, and reading a text.
* `not_only_unreadable`: Reading may end in another way.
-/

namespace Captions

/-- The null character. -/
def Text.null : Char := Char.ofNat 0

namespace FilePath

theorem null_not_mem_rootOf (t : Text) : Text.null ∉ rootOf t := by
  unfold rootOf
  split <;> decide

/-- A path keeps its null characters, whatever else is dropped. -/
theorem null_mem_text (t : Text) : Text.null ∈ (ofText t).text ↔ Text.null ∈ t := by
  have hslash : Text.null ∉ "/".toList := by decide
  constructor
  · intro h
    rw [text, ofText] at h
    split at h
    · exact absurd h (by decide)
    rcases List.mem_append.mp h with hroot | hnames
    · exact absurd hroot (null_not_mem_rootOf t)
    · rcases Text.mem_of_mem_joinWith _ _ _ hnames with hsep | ⟨n, hn, hc⟩
      · exact absurd hsep hslash
      · rw [← Text.joinWith_cutAt slash t]
        exact Text.mem_joinWith _ _ n _ (List.mem_of_mem_filter hn) hc
  · intro h
    rw [← Text.joinWith_cutAt slash t] at h
    rcases (Text.mem_of_mem_joinWith _ _ _ h).resolve_left (by decide) with ⟨n, hn, hc⟩
    have hname : isName n = true := by
      rw [isName, Bool.and_eq_true, decide_eq_true_eq, decide_eq_true_eq]
      refine ⟨List.ne_nil_of_mem hc, ?_⟩
      rintro rfl
      exact absurd hc (by decide)
    have hmem : n ∈ (ofText t).names := List.mem_filter.mpr ⟨hn, hname⟩
    rw [text, if_neg fun hempty => absurd hempty.2 (List.ne_nil_of_mem hmem)]
    exact List.mem_append_right _ (Text.mem_joinWith _ _ n _ hmem hc)

end FilePath

namespace FileTree

theorem findFrom_ne_nullCharacter (tree : FileTree) (names : List Text) :
    ∀ here, tree.findFrom here names ≠ .error .nullCharacter := by
  induction names with
  | nil => intro here; simp only [findFrom, ne_eq, reduceCtorEq, not_false_eq_true]
  | cons n names ih =>
      intro here
      rw [findFrom]
      split
      · exact ih _
      split
      · simp only [ne_eq, reduceCtorEq, Except.error.injEq, not_false_eq_true]
      split
      · exact ih _
      · split <;> simp only [ne_eq, reduceCtorEq, Except.error.injEq, not_false_eq_true]
      · split <;> simp only [ne_eq, reduceCtorEq, Except.error.injEq, not_false_eq_true]

theorem find_eq_nullCharacter_iff (tree : FileTree) (p : FilePath) :
    tree.find p = .error .nullCharacter ↔ Text.null ∈ p.text := by
  have hcontains : p.text.contains (Char.ofNat 0) = true ↔ Text.null ∈ p.text :=
    List.contains_iff_mem
  unfold find
  by_cases h : Text.null ∈ p.text
  · rw [if_pos (hcontains.mpr h)]
    exact iff_of_true rfl h
  · rw [if_neg fun hc => h (hcontains.mp hc)]
    refine iff_of_false ?_ h
    split
    · simp only [reduceCtorEq, Except.error.injEq, not_false_eq_true]
    · exact findFrom_ne_nullCharacter tree _ _

/-- A file is refused for a null character exactly when its path has one. -/
theorem read_eq_nullCharacter_iff (tree : FileTree) (p : FilePath) :
    (∃ fault, tree.read p = .error fault ∧ fault.trouble = .nullCharacter) ↔
      Text.null ∈ p.text := by
  rw [← find_eq_nullCharacter_iff tree p, read]
  rcases tree.find p with trouble | found
  · simp only [Except.error.injEq, exists_eq_left']
  · cases found <;> simp only [reduceCtorEq, Except.error.injEq, exists_eq_left', false_and,
      exists_false]

end FileTree

namespace Source

open Document (HasLongHours)

/-- What a file has as its text. -/
theorem content_eq_ok_iff (tree : FileTree) (p : FilePath) (t : Text) :
    content tree p = .ok t ↔ ∃ octets u, tree.read p = .ok octets ∧
      Utf8.decode (Utf8.afterMark octets) = .ok u ∧ t = Text.unifyBreaks u := by
  unfold content
  rcases tree.read p with fault | octets
  · simp only [reduceCtorEq, false_and, exists_false, iff_false]
    split <;> simp only [reduceCtorEq, not_false_eq_true]
  · rcases hdecode : Utf8.decode (Utf8.afterMark octets) with fault | u
    · simp only [Except.ok.injEq, exists_and_left, exists_eq_left', hdecode, reduceCtorEq,
        false_and, exists_false]
    · simp only [Except.ok.injEq, exists_and_left, exists_eq_left', hdecode, eq_comm]

/-- Why a file has no text. -/
theorem content_eq_error (tree : FileTree) (p : FilePath) (fault : Fault)
    (h : content tree p = .error fault) :
    fault = .nullCharacter ∧ Text.null ∈ p.text ∨ ∃ cause, fault = .unreadable p.text cause := by
  have hnull := FileTree.read_eq_nullCharacter_iff tree p
  unfold content at h
  split at h
  · rename_i trouble hread
    split at h
    · rename_i htrouble
      exact Or.inl ⟨(Except.error.inj h).symm, hnull.mp ⟨trouble, hread, htrouble⟩⟩
    · exact Or.inr ⟨_, (Except.error.inj h).symm⟩
  · split at h
    · exact Or.inr ⟨_, (Except.error.inj h).symm⟩
    · exact absurd h (ok_ne_error _ _)

theorem content_of_null (tree : FileTree) (p : FilePath) (h : Text.null ∈ p.text) :
    content tree p = .error .nullCharacter := by
  rcases (FileTree.read_eq_nullCharacter_iff tree p).mpr h with ⟨fault, hread, htrouble⟩
  rw [content, hread]
  exact if_pos htrouble

-- A text fails as the document in it does.
theorem parse_eq_error (name t : Text) (fault : Fault) (h : parse name t = .error fault) :
    fault = .longHours ∧ HasLongHours t ∨ ∃ cause, fault = .unreadable name (.document cause) := by
  unfold parse at h
  split at h
  · exact absurd h (ok_ne_error _ _)
  · rename_i hlong
    exact Or.inl ⟨(Except.error.inj h).symm, (Document.parse_eq_longHours_iff t).mp hlong⟩
  · exact Or.inr ⟨_, (Except.error.inj h).symm⟩

theorem parse_eq_longHours_iff (name t : Text) :
    parse name t = .error .longHours ↔ HasLongHours t := by
  constructor
  · intro h
    rcases parse_eq_error name t .longHours h with ⟨_, hlong⟩ | ⟨cause, hcause⟩
    · exact hlong
    · exact absurd hcause Fault.noConfusion
  · intro h
    rw [parse, (Document.parse_eq_longHours_iff t).mpr h]

/-- The text that a source is judged by: the one it is, or that of the path. -/
def Reference.text? : Reference → Option Text
  | .value (.text t) => some t
  | .path t => some (FilePath.ofText t).text
  | _ => none

/-- A value is no text. -/
def NotText (v : Value) : Prop := ∀ t, v ≠ .text t

/-- What a fault says of the source and of its file. -/
def Reason (tree : FileTree) (source : Reference) : Fault → Prop
  | .unusable _ =>
    (∃ v, source = .value v ∧ NotText v ∧ v.isWritable = true) ∨
      ∃ t, source.text? = some t ∧ Text.isAllBlank t = true
  | .longNumber => ∃ v, source = .value v ∧ NotText v ∧ v.isWritable = false
  | .unencodable torn => source = .torn torn
  | .unreadable name _ => ∃ t, source.text? = some t ∧ name = (FilePath.ofText t).text
  | .nullCharacter => ∃ t, source.text? = some t ∧ Text.null ∈ t
  | .longHours =>
    ∃ t octets u, source.text? = some t ∧ Text.isAllBlank t = false ∧
      tree.read (FilePath.ofText t) = .ok octets ∧
      Utf8.decode (Utf8.afterMark octets) = .ok u ∧ HasLongHours (Text.unifyBreaks u)

/-! ### The path of a source -/

theorem path_of_notText (v : Value) (h : NotText v) :
    path v = .error (if v.isWritable then .unusable (.notPath v) else .longNumber) := by
  unfold path
  split
  · rename_i t
    exact absurd rfl (h t)
  · rfl

theorem path_of_isAllBlank (t : Text) (h : Text.isAllBlank t = true) :
    path (.text t) = .error (.unusable .blank) := if_pos h

theorem path_of_not_isAllBlank (t : Text) (h : Text.isAllBlank t = false) :
    path (.text t) = .ok (FilePath.ofText t) := by
  rw [path, h]
  rfl

-- A path is judged by how it is written.
theorem filePath_of_text? (source : Reference) (t : Text) (h : source.text? = some t) :
    source.filePath = path (.text t) := by
  unfold Reference.text? at h
  split at h
  · rw [← Option.some.inj h, Reference.filePath]
  · rw [← Option.some.inj h, Reference.filePath]
  · exact absurd h.symm (Option.some_ne_none t)

-- What is no text to judge by is torn, or another value.
theorem source_of_text?_eq_none (source : Reference) (h : source.text? = none) :
    (∃ v, source = .value v ∧ NotText v) ∨ ∃ torn, source = .torn torn := by
  cases source with
  | value v =>
      refine Or.inl ⟨v, rfl, fun t ht => ?_⟩
      rw [ht] at h
      exact absurd h (Option.some_ne_none t)
  | path t => exact absurd h (Option.some_ne_none _)
  | torn torn => exact Or.inr ⟨torn, rfl⟩

/-! ### Reading -/

theorem read_of_fault (tree : FileTree) (source : Reference) (fault : Fault)
    (h : source.filePath = .error fault) : (read tree source).2 = .error fault := by
  rw [read, cues, h]
  rfl

/-- A source that names a file is read as the text of the file is. -/
theorem read_of_path (tree : FileTree) (source : Reference) (p : FilePath)
    (h : source.filePath = .ok p) :
    (read tree source).2 = (content tree p >>= fun t => parse p.text t) := by
  rw [read, cues, h, ok_bind]
  rcases content tree p with fault | t
  · rfl
  · rw [ok_bind, ok_bind]
    rcases parse p.text t with fault | found <;> rfl

/-- A source has no path, or it has one and its text is read or is not. -/
theorem read_cases (tree : FileTree) (source : Reference) :
    (∃ fault, Reason tree source fault ∧ source.filePath = .error fault ∧
      (read tree source).2 = .error fault) ∨
    (∃ t fault, source.text? = some t ∧ Text.isAllBlank t = false ∧
      content tree (FilePath.ofText t) = .error fault ∧ (read tree source).2 = .error fault) ∨
    ∃ t u, source.text? = some t ∧ Text.isAllBlank t = false ∧
      content tree (FilePath.ofText t) = .ok u ∧
      (read tree source).2 = parse (FilePath.ofText t).text u := by
  rcases htext : source.text? with _ | t
  · rcases source_of_text?_eq_none source htext with ⟨v, rfl, hv⟩ | ⟨torn, rfl⟩
    · have hpath : (Reference.value v).filePath = _ := path_of_notText v hv
      refine Or.inl ⟨_, ?_, hpath, read_of_fault tree _ _ hpath⟩
      rcases hwritable : v.isWritable with _ | _
      · exact ⟨v, rfl, hv, hwritable⟩
      · exact Or.inl ⟨v, rfl, hv, hwritable⟩
    · exact Or.inl ⟨.unencodable torn, rfl, rfl, read_of_fault tree _ _ rfl⟩
  · have hpath := filePath_of_text? source t htext
    rcases hblank : Text.isAllBlank t with _ | _
    · rw [path_of_not_isAllBlank t hblank] at hpath
      have hread := read_of_path tree source _ hpath
      rcases hcontent : content tree (FilePath.ofText t) with fault | u
      · rw [hcontent] at hread
        exact Or.inr (Or.inl ⟨t, fault, rfl, hblank, hcontent, hread⟩)
      · rw [hcontent, ok_bind] at hread
        exact Or.inr (Or.inr ⟨t, u, rfl, hblank, hcontent, hread⟩)
    · rw [path_of_isAllBlank t hblank] at hpath
      have hreason : Reason tree source (.unusable .blank) := Or.inr ⟨t, htext, hblank⟩
      exact Or.inl ⟨_, hreason, hpath, read_of_fault tree _ _ hpath⟩

/-- A reading that fails does so for the reason of its fault. -/
theorem read_reason (tree : FileTree) (source : Reference) (fault : Fault)
    (h : (read tree source).2 = .error fault) : Reason tree source fault := by
  rcases read_cases tree source with ⟨other, hreason, _, hread⟩ |
    ⟨t, other, htext, _, hcontent, hread⟩ | ⟨t, u, htext, hblank, hcontent, hread⟩
  · rw [hread, Except.error.injEq] at h
    exact h ▸ hreason
  · rw [hread, Except.error.injEq] at h
    subst h
    rcases content_eq_error tree _ other hcontent with ⟨rfl, hnull⟩ | ⟨cause, rfl⟩
    · exact ⟨t, htext, (FilePath.null_mem_text t).mp hnull⟩
    · exact ⟨t, htext, rfl⟩
  · rw [hread] at h
    rcases (content_eq_ok_iff tree _ u).mp hcontent with ⟨octets, v, hoctets, hdecode, rfl⟩
    rcases parse_eq_error _ _ fault h with ⟨rfl, hlong⟩ | ⟨cause, rfl⟩
    · exact ⟨t, octets, v, htext, hblank, hoctets, hdecode, hlong⟩
    · exact ⟨t, htext, rfl⟩

theorem not_isAllBlank_of_null (t : Text) (h : Text.null ∈ t) : Text.isAllBlank t = false := by
  rw [← Bool.not_eq_true, Text.isAllBlank, List.all_eq_true]
  exact fun hall => absurd (hall _ h) (by decide)

theorem read_eq_unusable_iff (tree : FileTree) (source : Reference) :
    (∃ misuse, (read tree source).2 = .error (.unusable misuse)) ↔
      (∃ v, source = .value v ∧ NotText v ∧ v.isWritable = true) ∨
        ∃ t, source.text? = some t ∧ Text.isAllBlank t = true := by
  constructor
  · rintro ⟨misuse, hread⟩
    exact read_reason tree source _ hread
  · rintro (⟨v, rfl, hv, hwritable⟩ | ⟨t, htext, hblank⟩)
    · have hpath : (Reference.value v).filePath = _ := path_of_notText v hv
      rw [hwritable] at hpath
      exact ⟨_, read_of_fault tree _ _ hpath⟩
    · have hpath := filePath_of_text? source t htext
      rw [path_of_isAllBlank t hblank] at hpath
      exact ⟨_, read_of_fault tree source _ hpath⟩

theorem read_eq_longNumber_iff (tree : FileTree) (source : Reference) :
    (read tree source).2 = .error .longNumber ↔
      ∃ v, source = .value v ∧ NotText v ∧ v.isWritable = false := by
  constructor
  · exact read_reason tree source .longNumber
  · rintro ⟨v, rfl, hv, hwritable⟩
    have hpath : (Reference.value v).filePath = _ := path_of_notText v hv
    rw [hwritable] at hpath
    exact read_of_fault tree _ _ hpath

theorem read_eq_unencodable_iff (tree : FileTree) (source : Reference) (torn : Torn) :
    (read tree source).2 = .error (.unencodable torn) ↔ source = .torn torn := by
  constructor
  · exact read_reason tree source (.unencodable torn)
  · rintro rfl
    exact read_of_fault tree _ _ rfl

theorem read_eq_nullCharacter_iff (tree : FileTree) (source : Reference) :
    (read tree source).2 = .error .nullCharacter ↔
      ∃ t, source.text? = some t ∧ Text.null ∈ t := by
  constructor
  · exact read_reason tree source .nullCharacter
  · rintro ⟨t, htext, hnull⟩
    have hpath := filePath_of_text? source t htext
    rw [path_of_not_isAllBlank t (not_isAllBlank_of_null t hnull)] at hpath
    rw [read_of_path tree source _ hpath,
      content_of_null tree _ ((FilePath.null_mem_text t).mpr hnull)]
    rfl

theorem read_eq_longHours_iff (tree : FileTree) (source : Reference) :
    (read tree source).2 = .error .longHours ↔
      ∃ t octets u, source.text? = some t ∧ Text.isAllBlank t = false ∧
        tree.read (FilePath.ofText t) = .ok octets ∧
        Utf8.decode (Utf8.afterMark octets) = .ok u ∧ HasLongHours (Text.unifyBreaks u) := by
  constructor
  · exact read_reason tree source .longHours
  · rintro ⟨t, octets, u, htext, hblank, hoctets, hdecode, hlong⟩
    have hpath := filePath_of_text? source t htext
    rw [path_of_not_isAllBlank t hblank] at hpath
    rw [read_of_path tree source _ hpath,
      (content_eq_ok_iff tree _ _).mpr ⟨octets, u, hoctets, hdecode, rfl⟩, ok_bind,
      parse_eq_longHours_iff]
    exact hlong

/-- How reading ends. A source that names no file is told apart from one whose
    file gives no cues. Besides these, a value that cannot be shown, half a
    character or a null character in the path, and hours that are too long end
    the reading, and nothing else does. -/
theorem read_outcome (tree : FileTree) (source : Reference) :
    ((∃ misuse, (read tree source).2 = .error (.unusable misuse)) ↔
      (∃ v, source = .value v ∧ NotText v ∧ v.isWritable = true) ∨
        ∃ t, source.text? = some t ∧ Text.isAllBlank t = true) ∧
    ((read tree source).2 = .error .longNumber ↔
      ∃ v, source = .value v ∧ NotText v ∧ v.isWritable = false) ∧
    (∀ torn, (read tree source).2 = .error (.unencodable torn) ↔ source = .torn torn) ∧
    ((read tree source).2 = .error .nullCharacter ↔
      ∃ t, source.text? = some t ∧ Text.null ∈ t) ∧
    ((read tree source).2 = .error .longHours ↔
      ∃ t octets u, source.text? = some t ∧ Text.isAllBlank t = false ∧
        tree.read (FilePath.ofText t) = .ok octets ∧
        Utf8.decode (Utf8.afterMark octets) = .ok u ∧ HasLongHours (Text.unifyBreaks u)) ∧
    ((∃ cues, (read tree source).2 = .ok cues) ∨
      (∃ misuse, (read tree source).2 = .error (.unusable misuse)) ∨
      (∃ t cause, source.text? = some t ∧
        (read tree source).2 = .error (.unreadable (FilePath.ofText t).text cause)) ∨
      (read tree source).2 = .error .longNumber ∨
      (∃ torn, (read tree source).2 = .error (.unencodable torn)) ∨
      (read tree source).2 = .error .nullCharacter ∨
      (read tree source).2 = .error .longHours) ∧
    -- A text that comes from no file has only the last of these four.
    ∀ name t, (parse name t = .error .longHours ↔ HasLongHours t) ∧
      ((∃ cues, parse name t = .ok cues) ∨
        (∃ cause, parse name t = .error (.unreadable name (.document cause))) ∨
        parse name t = .error .longHours) := by
  have hparse : ∀ name t, (∃ cues, parse name t = .ok cues) ∨
      (∃ cause, parse name t = .error (.unreadable name (.document cause))) ∨
      parse name t = .error .longHours := by
    intro name t
    rcases hresult : parse name t with fault | cues
    · rcases parse_eq_error name t fault hresult with ⟨rfl, _⟩ | ⟨cause, rfl⟩
      · exact Or.inr (Or.inr rfl)
      · exact Or.inr (Or.inl ⟨cause, rfl⟩)
    · exact Or.inl ⟨cues, rfl⟩
  refine ⟨read_eq_unusable_iff tree source, read_eq_longNumber_iff tree source,
    read_eq_unencodable_iff tree source, read_eq_nullCharacter_iff tree source,
    read_eq_longHours_iff tree source, ?_,
    fun name t => ⟨parse_eq_longHours_iff name t, hparse name t⟩⟩
  rcases hread : (read tree source).2 with fault | cues
  · have hreason := read_reason tree source fault hread
    cases fault with
    | unusable misuse => exact Or.inr (Or.inl ⟨misuse, rfl⟩)
    | unreadable name cause =>
        rcases hreason with ⟨t, htext, rfl⟩
        exact Or.inr (Or.inr (Or.inl ⟨t, cause, htext, rfl⟩))
    | longNumber => exact Or.inr (Or.inr (Or.inr (Or.inl rfl)))
    | unencodable torn => exact Or.inr (Or.inr (Or.inr (Or.inr (Or.inl ⟨torn, rfl⟩))))
    | nullCharacter => exact Or.inr (Or.inr (Or.inr (Or.inr (Or.inr (Or.inl rfl)))))
    | longHours => exact Or.inr (Or.inr (Or.inr (Or.inr (Or.inr (Or.inr rfl)))))
  · exact Or.inl ⟨cues, rfl⟩

/-- A path with a null character. -/
def nullPath : Text := ['a', Text.null, 'b']

-- Reading may end neither with cues nor in a fault of one of the two kinds.
theorem not_only_unreadable :
    ¬ ∀ (tree : FileTree) (source : Reference), (∃ cues, (read tree source).2 = .ok cues) ∨
      (∃ misuse, (read tree source).2 = .error (.unusable misuse)) ∨
      ∃ name cause, (read tree source).2 = .error (.unreadable name cause) := by
  intro h
  have hnull : (read ⟨[], []⟩ (Value.text nullPath)).2 = .error .nullCharacter := rfl
  rcases h ⟨[], []⟩ (Value.text nullPath) with
    ⟨cues, hread⟩ | ⟨misuse, hread⟩ | ⟨name, cause, hread⟩
  · exact absurd (hnull.symm.trans hread) (error_ne_ok _ _)
  · exact absurd (Except.error.inj (hnull.symm.trans hread)) Fault.noConfusion
  · exact absurd (Except.error.inj (hnull.symm.trans hread)) Fault.noConfusion

end Source

end Captions
