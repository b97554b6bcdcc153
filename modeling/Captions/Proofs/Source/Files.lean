import Captions.Proofs.Document.Blocks
import Captions.Proofs.Text.Utf8

/-!
# Texts in Files

A subtitle file is read as the text it was written from would be, whatever line
endings were used and whether or not it begins with byte order marks.

Between the octets and the document stand three steps that each change the text.
The reader of octets takes off a single mark and the document takes off all that
are left, so any number of marks comes to the same. Line breaks are unified
before the lines are cut, although cutting knows every break by itself; that
this makes no difference is `blocks_unifyBreaks`, and the reason why even a text
of mixed and doubled breaks can be read from a file or directly.

A fault may be worded differently on the two ways, because it names the file
and quotes the lines with their endings. Both ways fail on the same texts, and
that is what an equality of `toOption` says.

## Main definitions

* `Text.Ending`: The three ways of ending a line.
* `Text.Ending.write`: A text with its line feeds written in one of them.

## Theorems

* `unifyBreaks_write`: The line feeds come back from any of the three.
* `parse_unifyBreaks`: A document with unified breaks is the same document.
* `content_encode`: The text that is taken out of a file.
* `read_as_parsed`: A file is read as its text is.
-/

namespace Captions

namespace Text

/-- A way of ending a line. -/
inductive Ending where
  /-- A line feed. -/
  | lineFeed
  /-- A carriage return and a line feed. -/
  | both
  /-- A carriage return. -/
  | carriageReturn
  deriving DecidableEq

/-- The characters of an ending. -/
def Ending.text : Ending → Text
  | .lineFeed => "\n"
  | .both => "\r\n"
  | .carriageReturn => "\r"

/-- A text with its line feeds written in one way. -/
def Ending.write (e : Ending) (t : Text) : Text :=
  t.flatMap fun c => if c = '\n' then e.text else [c]

theorem Ending.write_newline (e : Ending) (t : Text) : e.write ('\n' :: t) = e.text ++ e.write t :=
  rfl

theorem Ending.write_cons (e : Ending) (c : Char) (t : Text) (hc : c ≠ '\n') :
    e.write (c :: t) = c :: e.write t := by
  rw [write, List.flatMap_cons, if_neg hc, List.singleton_append, ← write]

-- With carriage returns for line feeds, no line feed is left to follow one.
theorem Ending.head?_write (t : Text) :
    (Ending.carriageReturn.write t).head? ≠ some '\n' := by
  intro h
  cases t with
  | nil => exact absurd (show (none : Option Char) = some '\n' from h) (by decide)
  | cons c t =>
      by_cases hc : c = '\n'
      · rw [hc, write_newline] at h
        exact absurd (Option.some.inj h) (by decide)
      · rw [write_cons _ c t hc] at h
        exact hc (Option.some.inj h)

/-- Unifying the breaks gives the line feeds back. -/
theorem unifyBreaks_write (e : Ending) (t : Text) (h : '\r' ∉ t) : unifyBreaks (e.write t) = t := by
  induction t with
  | nil => rfl
  | cons c t ih =>
      rw [List.mem_cons, not_or] at h
      by_cases hc : c = '\n'
      · rw [hc, Ending.write_newline]
        cases e with
        | lineFeed =>
            exact (unifyBreaks_cons '\n' _ (by decide)).trans (congrArg _ (ih h.2))
        | both =>
            have hboth : Ending.both.text ++ Ending.both.write t
                = '\r' :: '\n' :: Ending.both.write t := rfl
            rw [hboth, unifyBreaks_return, if_pos List.head?_cons,
              unifyBreaks_cons '\n' _ (by decide), ih h.2]
        | carriageReturn =>
            have hreturn : Ending.carriageReturn.text ++ Ending.carriageReturn.write t
                = '\r' :: Ending.carriageReturn.write t := rfl
            rw [hreturn, unifyBreaks_return, if_neg (Ending.head?_write t), ih h.2]
      · rw [Ending.write_cons e c t hc, unifyBreaks_cons c _ (Ne.symm h.1), ih h.2]

end Text

namespace Document

theorem mark_ne_return : mark ≠ '\r' := by decide

theorem unmarked_unifyBreaks (t : Text) :
    unmarked (Text.unifyBreaks t) = Text.unifyBreaks (unmarked t) := by
  induction t with
  | nil => rfl
  | cons c t ih =>
      by_cases hc : c = mark
      · rw [hc, Text.unifyBreaks_cons mark t mark_ne_return, unmarked_mark, unmarked_mark, ih]
      · have hhead : ∀ u : Text, (c :: u).head? ≠ some mark := fun u heq =>
          hc (Option.some.inj heq)
        have hnewline : ∀ u : Text, ('\n' :: u).head? ≠ some mark := fun u heq =>
          absurd (Option.some.inj heq) (by decide)
        rw [unmarked_eq_self (c :: t) (hhead t)]
        refine unmarked_eq_self _ ?_
        by_cases hr : c = '\r'
        · rw [hr, Text.unifyBreaks_return]
          by_cases hnext : t.head? = some '\n'
          · rcases List.head?_eq_some_iff.mp hnext with ⟨u, rfl⟩
            rw [if_pos hnext, Text.unifyBreaks_cons '\n' u (by decide)]
            exact hnewline _
          · rw [if_neg hnext]
            exact hnewline _
        · rw [Text.unifyBreaks_cons c t hr]
          exact hhead _

/-- A document is the same with its line breaks unified. -/
theorem parse_unifyBreaks (t : Text) (cues : List Cue) :
    parse (Text.unifyBreaks t) = .ok cues ↔ parse t = .ok cues := by
  rw [parse_eq_ok_iff, parse_eq_ok_iff, unmarked_unifyBreaks, blocks_unifyBreaks]

theorem parse_mark (t : Text) (cues : List Cue) :
    parse (mark :: t) = .ok cues ↔ parse t = .ok cues := by
  rw [parse_eq_ok_iff, parse_eq_ok_iff, unmarked_mark]

theorem parse_marks (k : Nat) (t : Text) (cues : List Cue) :
    parse (List.replicate k mark ++ t) = .ok cues ↔ parse t = .ok cues := by
  induction k with
  | zero => exact Iff.rfl
  | succ k ih => rw [List.replicate_succ, List.cons_append, parse_mark, ih]

end Document

namespace Source

/-- What is taken out of a file is the text that was written, without one of
    its marks and with its breaks unified. -/
theorem content_encode (tree : FileTree) (p : FilePath) (t : Text)
    (hfile : tree.read p = .ok (Utf8.encode t)) :
    ∃ u, content tree p = .ok (Text.unifyBreaks u) ∧ (u = t ∨ t = Document.mark :: u) := by
  unfold content
  rw [hfile]
  simp only []
  by_cases hhead : t.head? = some Utf8.markChar
  · rcases List.head?_eq_some_iff.mp hhead with ⟨u, rfl⟩
    rw [Utf8.afterMark_encode_mark, Utf8.decode_encode]
    exact ⟨u, rfl, Or.inr rfl⟩
  · rw [Utf8.afterMark_encode_of_ne t hhead, Utf8.decode_encode]
    exact ⟨t, rfl, Or.inl rfl⟩

-- A source is read as the text of its file.
theorem read_eq_ok_iff (tree : FileTree) (source : Value) (p : FilePath) (t : Text)
    (hp : path source = .ok p) (ht : content tree p = .ok t) (cues : List Cue) :
    (read tree source).2 = .ok cues ↔ Document.parse t = .ok cues := by
  have hcues : Source.cues tree source = (parse p.text t).map fun found => (p, found) := by
    unfold Source.cues Reference.filePath
    simp only [hp, ht, bind, Except.bind]
    rcases parse p.text t with fault | found
    · rfl
    · rfl
  rw [← parse_eq_ok_iff p.text, read, hcues]
  rcases parse p.text t with fault | found
  · simp only [Except.map, reduceCtorEq]
  · simp only [Except.map, Except.ok.injEq]

theorem read_encode (tree : FileTree) (source : Value) (p : FilePath) (t : Text)
    (hp : path source = .ok p) (hfile : tree.read p = .ok (Utf8.encode t)) (cues : List Cue) :
    (read tree source).2 = .ok cues ↔ Document.parse t = .ok cues := by
  rcases content_encode tree p t hfile with ⟨u, hcontent, rfl | rfl⟩
  · rw [read_eq_ok_iff tree source p _ hp hcontent, Document.parse_unifyBreaks]
  · rw [read_eq_ok_iff tree source p _ hp hcontent, Document.parse_unifyBreaks,
      Document.parse_mark]

/-- A file that holds a text is read as the text is. This does not depend on the
    path, nor on how the line feeds were written or how many marks stand in
    front, and it holds for every text, whatever breaks are in it. -/
theorem read_as_parsed (tree : FileTree) (source : Value) (p : FilePath)
    (hp : path source = .ok p) (name : Text) :
    (∀ (e : Text.Ending) (k : Nat) (t : Text), '\r' ∉ t →
      tree.read p = .ok (Utf8.encode (List.replicate k Document.mark ++ e.write t)) →
      (read tree source).2.toOption = (parse name t).toOption) ∧
    ∀ t, tree.read p = .ok (Utf8.encode t) →
      (read tree source).2.toOption = (parse name t).toOption := by
  constructor
  · intro e k t hreturn hfile
    refine toOption_eq_of_iff _ _ fun cues => ?_
    rw [read_encode tree source p _ hp hfile, Document.parse_marks, parse_eq_ok_iff,
      ← Document.parse_unifyBreaks, Text.unifyBreaks_write e t hreturn]
  · intro t hfile
    refine toOption_eq_of_iff _ _ fun cues => ?_
    rw [read_encode tree source p t hp hfile, parse_eq_ok_iff]

/-- A text whose lines end in line feeds. -/
def talk : Text := "1\n00:00:01,000 --> 00:00:02,000\nfirst\n\n"

/-- A tree with a single file, which holds the text with two marks in front and
    its lines ended by a carriage return and a line feed. -/
def talkTree : FileTree :=
  ⟨[], [(["talk.srt"],
    .file (Utf8.encode (List.replicate 2 Document.mark ++ Text.Ending.both.write talk)))]⟩

theorem read_as_parsed_talk :
    (read talkTree (Value.text "talk.srt")).2.toOption = (parse "<string>" talk).toOption ∧
    (read talkTree (Value.text "talk.srt")).2.toOption
      = (parse "<string>"
          (List.replicate 2 Document.mark ++ Text.Ending.both.write talk)).toOption ∧
    parse "<string>" talk
      = .ok [⟨.ofInt 1, .text "00:00:01,000", .text "00:00:02,000", "first"⟩] := by
  have hp : path (.text "talk.srt") = .ok (FilePath.ofText "talk.srt") := rfl
  have hfile : talkTree.read (FilePath.ofText "talk.srt")
      = .ok (Utf8.encode (List.replicate 2 Document.mark ++ Text.Ending.both.write talk)) := rfl
  have h := read_as_parsed talkTree (.text "talk.srt") _ hp "<string>"
  exact ⟨h.1 .both 2 talk (by decide) hfile, h.2 _ hfile, by with_unfolding_all rfl⟩

end Source

end Captions
