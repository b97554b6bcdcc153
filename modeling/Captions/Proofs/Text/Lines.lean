import Captions.Proofs.Text.Pieces
import Mathlib.Data.List.DropRight

/-!
# Lines without their Endings

What a text looks like line by line once the blanks at the end of each line are
gone.

A document is read by its trimmed lines alone: a line's ending is blank, so
trimming removes it, and two texts with the same trimmed lines are read alike.
Without the endings a text is easily followed from the front. A character that
is no break goes to the line that follows it; a break is an empty line in front
of the rest. Only a carriage return has to look ahead, because before a line
feed it says nothing of its own.

Three facts come out of this. A line feed ends a line whatever stands on either
side of it (`trimmedLines_append_newline`). A line feed at the very end closes
the last line, or else adds an empty one (`trimmedLines_concat_newline`). And
writing every carriage return as a line feed changes no trimmed line
(`trimmedLines_unifyBreaks`), because there the same pairs count as one.

## Main definitions

* `trimmedLines`: The lines of a text without the blanks they end with.
* `Tidy`: A line that can be told from its text.

## Theorems

* `trimmedLines_append_newline`: Lines on either side of a line feed.
* `trimmedLines_concat_newline`: What a final line feed adds.
* `trimmedLines_line`: A line without a break in it.
* `tidy_of_mem_trimmedLines`: The lines of a text that are not blank are tidy.
* `trimmedLines_joinWith`: Tidy lines that are joined come apart again.
* `trimmedLines_unifyBreaks`: Unifying the line breaks changes no line.
-/

namespace Captions

namespace Text

theorem dropEndWhile_cons (p : Char → Bool) (c : Char) (t : Text) :
    dropEndWhile p (c :: t)
      = if (dropEndWhile p t).isEmpty && p c then [] else c :: dropEndWhile p t := rfl

theorem dropEndWhile_concat (p : Char → Bool) (t : Text) (c : Char) :
    dropEndWhile p (t ++ [c]) = if p c = true then dropEndWhile p t else t ++ [c] := by
  induction t with
  | nil =>
      rw [List.nil_append, dropEndWhile_cons]
      rfl
  | cons d t ih =>
      rw [List.cons_append, dropEndWhile_cons, ih, dropEndWhile_cons]
      by_cases hc : p c = true
      · rw [if_pos hc, if_pos hc]
      · have hne : (t ++ [c]).isEmpty = false :=
          List.isEmpty_eq_false_iff.mpr
            (List.append_ne_nil_of_right_ne_nil _ (List.cons_ne_nil _ _))
        rw [if_neg hc, if_neg hc, hne, Bool.false_and, if_neg Bool.false_ne_true]

-- The library drops at the end by reversing twice; its lemmas serve here too.
theorem dropEndWhile_eq_rdropWhile (p : Char → Bool) (t : Text) :
    dropEndWhile p t = t.rdropWhile p := by
  induction t using List.reverseRecOn with
  | nil => rfl
  | append_singleton t c ih => rw [dropEndWhile_concat, List.rdropWhile_concat, ih]

theorem dropEndWhile_append (p : Char → Bool) (t u : Text) :
    dropEndWhile p (t ++ u)
      = if dropEndWhile p u = [] then dropEndWhile p t else t ++ dropEndWhile p u := by
  induction u using List.reverseRecOn with
  | nil => rw [List.append_nil, dropEndWhile_eq_rdropWhile p [], List.rdropWhile_nil, if_pos rfl]
  | append_singleton u c ih =>
      rw [← List.append_assoc, dropEndWhile_concat, dropEndWhile_concat]
      by_cases hc : p c = true
      · rw [if_pos hc, if_pos hc, ih]
      · rw [if_neg hc, if_neg hc,
          if_neg (List.append_ne_nil_of_right_ne_nil _ (List.cons_ne_nil _ _)),
          List.append_assoc]

/-- What is dropped at either end may be put there first. -/
theorem dropEndWhile_dropWhile_append (p : Char → Bool) (front t rest : Text)
    (hfront : ∀ c ∈ front, p c = true) (hrest : ∀ c ∈ rest, p c = true) :
    dropEndWhile p ((front ++ t ++ rest).dropWhile p) = dropEndWhile p (t.dropWhile p) := by
  have hend : dropEndWhile p rest = [] := by
    rw [dropEndWhile_eq_rdropWhile, List.rdropWhile_eq_nil_iff]
    exact hrest
  rw [List.append_assoc, List.dropWhile_append_of_pos hfront, List.dropWhile_append]
  by_cases ht : (t.dropWhile p).isEmpty = true
  · rw [if_pos ht, List.isEmpty_iff.mp ht, List.dropWhile_eq_nil_iff.mpr hrest]
  · rw [if_neg ht, dropEndWhile_append, if_pos hend]

theorem trim_append (front t rest : Text) (hfront : isAllBlank front = true)
    (hrest : isAllBlank rest = true) : trim (front ++ t ++ rest) = trim t :=
  dropEndWhile_dropWhile_append isBlank front t rest (List.all_eq_true.mp hfront)
    (List.all_eq_true.mp hrest)

theorem trimEnd_eq_nil_iff (t : Text) : trimEnd t = [] ↔ isAllBlank t = true := by
  rw [trimEnd, dropEndWhile_eq_rdropWhile, List.rdropWhile_eq_nil_iff, isAllBlank,
    List.all_eq_true]

theorem trimEnd_trimEnd (t : Text) : trimEnd (trimEnd t) = trimEnd t := by
  rw [trimEnd, trimEnd, dropEndWhile_eq_rdropWhile, dropEndWhile_eq_rdropWhile,
    List.rdropWhile_idempotent]

-- Nothing is trimmed from a text whose last character is not blank.
theorem trimEnd_eq_self (t : Text) (h : ∀ c, t.getLast? = some c → isBlank c = false) :
    trimEnd t = t := by
  rw [trimEnd, dropEndWhile_eq_rdropWhile, List.rdropWhile_eq_self_iff]
  intro hne hblank
  rw [h _ (List.getLast?_eq_some_getLast hne)] at hblank
  exact Bool.false_ne_true hblank

theorem trimEnd_cons (c : Char) (t : Text) : trimEnd (c :: t) = trimEnd (c :: trimEnd t) := by
  rw [trimEnd, dropEndWhile_cons, trimEnd, dropEndWhile_cons, ← trimEnd, ← trimEnd,
    trimEnd_trimEnd]

theorem trimEnd_break (c : Char) (hc : isBreak c = true) : trimEnd [c] = [] := by
  rw [trimEnd_eq_nil_iff, isAllBlank, List.all_cons, isBlank_of_isBreak hc, List.all_nil,
    Bool.and_true]

/-- The lines of a text without the blanks they end with. -/
def trimmedLines (t : Text) : List Text := (lines t).map trimEnd

theorem trimmedLines_nil : trimmedLines [] = [] := rfl

theorem map_trimEnd_trimmedLines (t : Text) : (trimmedLines t).map trimEnd = trimmedLines t := by
  rw [trimmedLines, List.map_map]
  exact List.map_congr_left fun l _ => trimEnd_trimEnd l

theorem extendFirst_append (c : Char) (ls ms : List Text) (h : ls ≠ []) :
    extendFirst c (ls ++ ms) = extendFirst c ls ++ ms := by
  cases ls with
  | nil => exact absurd rfl h
  | cons l ls => rfl

theorem map_trimEnd_extendFirst (c : Char) (ls : List Text) :
    (extendFirst c ls).map trimEnd = (extendFirst c (ls.map trimEnd)).map trimEnd := by
  cases ls with
  | nil => rfl
  | cons l ls =>
      rw [extendFirst, List.map_cons, List.map_cons, extendFirst, List.map_cons, List.map_map,
        trimEnd_cons]
      congr 1
      exact List.map_congr_left fun m _ => (trimEnd_trimEnd m).symm

/-- A character that is no break goes to the line that follows it. -/
theorem trimmedLines_cons (c : Char) (t : Text) (hc : isBreak c = false) :
    trimmedLines (c :: t) = (extendFirst c (trimmedLines t)).map trimEnd := by
  have hlines : lines (c :: t) = extendFirst c (lines t) := by
    rw [lines_cons]
    unfold addToLines
    rw [hc, if_neg Bool.false_ne_true]
  rw [trimmedLines, hlines, map_trimEnd_extendFirst, ← trimmedLines]

-- A break other than the carriage return pays no attention to what follows it.
theorem lines_break (c : Char) (t : Text) (hc : isBreak c = true) (hne : c ≠ '\r') :
    lines (c :: t) = [c] :: lines t := by
  rw [lines_cons]
  unfold addToLines
  rw [if_pos hc]
  split
  · rw [if_neg hne]
  · rfl

theorem lines_newline (t : Text) : lines ('\n' :: t) = ['\n'] :: lines t :=
  lines_break '\n' t (by decide) (by decide)

theorem trimmedLines_break (c : Char) (t : Text) (hc : isBreak c = true) (hne : c ≠ '\r') :
    trimmedLines (c :: t) = [] :: trimmedLines t := by
  rw [trimmedLines, lines_break c t hc hne, List.map_cons, trimEnd_break c hc, ← trimmedLines]

theorem trimmedLines_newline (t : Text) : trimmedLines ('\n' :: t) = [] :: trimmedLines t :=
  trimmedLines_break '\n' t (by decide) (by decide)

-- A carriage return before a line feed belongs to the same ending.
theorem trimmedLines_return_newline (t : Text) :
    trimmedLines ('\r' :: '\n' :: t) = trimmedLines ('\n' :: t) := by
  rw [trimmedLines, trimmedLines, lines_cons, lines_newline, addToLines, if_pos (by decide),
    if_pos rfl, List.map_cons, List.map_cons]
  rfl

theorem trimmedLines_return (t : Text) (ht : t.head? ≠ some '\n') :
    trimmedLines ('\r' :: t) = [] :: trimmedLines t := by
  have hlines : lines ('\r' :: t) = ['\r'] :: lines t := by
    rw [lines_cons]
    unfold addToLines
    rw [if_pos (by decide)]
    split
    · -- The text is its lines joined, so it would begin with a line feed.
      rename_i after heq
      have hflat := flatten_lines t
      rw [heq, List.flatten_cons] at hflat
      rw [← hflat] at ht
      exact absurd rfl ht
    · rfl
  rw [trimmedLines, hlines, List.map_cons, ← trimmedLines]
  rfl

theorem trimmedLines_ne_nil (t : Text) (h : t ≠ []) : trimmedLines t ≠ [] := by
  intro hnil
  have hflat := flatten_lines t
  rw [List.map_eq_nil_iff.mp hnil] at hflat
  exact h hflat.symm

-- Up to the line feed the two texts are the same.
theorem head?_append_newline (a b : Text) :
    (a ++ '\n' :: b).head? = (a ++ ['\n']).head? := by
  cases a with
  | nil => rfl
  | cons c a => rfl

/-- A line feed ends a line, whatever follows and whatever comes before it. -/
theorem trimmedLines_append_newline (a b : Text) :
    trimmedLines (a ++ '\n' :: b) = trimmedLines (a ++ ['\n']) ++ trimmedLines b := by
  induction a with
  | nil =>
      rw [List.nil_append, List.nil_append, trimmedLines_newline, trimmedLines_newline]
      rfl
  | cons c a ih =>
      have hne : trimmedLines (a ++ ['\n']) ≠ [] :=
        trimmedLines_ne_nil _ (List.append_ne_nil_of_right_ne_nil _ (List.cons_ne_nil _ _))
      rw [List.cons_append, List.cons_append]
      by_cases hc : isBreak c = true
      · by_cases hr : c = '\r'
        · subst hr
          have hsame := head?_append_newline a b
          by_cases hhead : (a ++ ['\n']).head? = some '\n'
          · rcases List.head?_eq_some_iff.mp hhead with ⟨u, hu⟩
            rcases List.head?_eq_some_iff.mp (hsame.trans hhead) with ⟨v, hv⟩
            rw [hu, hv, trimmedLines_return_newline, trimmedLines_return_newline, ← hu, ← hv, ih]
          · rw [trimmedLines_return _ hhead, trimmedLines_return _ (hsame ▸ hhead), ih,
              List.cons_append]
        · rw [trimmedLines_break _ _ hc hr, trimmedLines_break _ _ hc hr, ih, List.cons_append]
      · rw [Bool.not_eq_true] at hc
        rw [trimmedLines_cons _ _ hc, trimmedLines_cons _ _ hc, ih, extendFirst_append _ _ _ hne,
          List.map_append, map_trimEnd_trimmedLines]

/-- A line feed at the end closes the last line, or adds an empty one. -/
theorem trimmedLines_concat_newline (a : Text) :
    trimmedLines (a ++ ['\n']) = trimmedLines a ∨
      trimmedLines (a ++ ['\n']) = trimmedLines a ++ [[]] := by
  induction a with
  | nil => exact Or.inr rfl
  | cons c a ih =>
      rw [List.cons_append]
      by_cases hc : isBreak c = true
      · by_cases hr : c = '\r'
        · subst hr
          cases a with
          | nil => exact Or.inl rfl
          | cons d a =>
              by_cases hd : d = '\n'
              · subst hd
                rw [List.cons_append, trimmedLines_return_newline, trimmedLines_return_newline]
                exact ih
              · have hhead : ∀ t : Text, (d :: t).head? ≠ some '\n' := fun t heq =>
                  hd (Option.some.inj heq)
                rw [List.cons_append, trimmedLines_return _ (hhead _),
                  trimmedLines_return _ (hhead _), List.cons_append, List.cons_inj_right,
                  List.cons_inj_right]
                exact ih
        · rw [trimmedLines_break _ _ hc hr, trimmedLines_break _ _ hc hr, List.cons_append,
            List.cons_inj_right, List.cons_inj_right]
          exact ih
      · rw [Bool.not_eq_true] at hc
        rw [trimmedLines_cons _ _ hc, trimmedLines_cons _ _ hc]
        rcases ih with hclosed | hadded
        · left
          rw [hclosed]
        · by_cases hempty : trimmedLines a = []
          · left
            rw [hadded, hempty]
            rfl
          · right
            rw [hadded, extendFirst_append _ _ _ hempty, List.map_append]
            rfl

/-- A line without a break in it is trimmed, and the lines after it follow. -/
theorem trimmedLines_line (l rest : Text) (hl : ∀ c ∈ l, isBreak c = false) :
    trimmedLines (l ++ '\n' :: rest) = trimEnd l :: trimmedLines rest := by
  induction l with
  | nil =>
      rw [List.nil_append, trimmedLines_newline]
      rfl
  | cons c l ih =>
      rw [List.cons_append, trimmedLines_cons _ _ (hl c List.mem_cons_self),
        ih (fun d hd => hl d (List.mem_cons_of_mem c hd)), extendFirst, List.map_cons,
        map_trimEnd_trimmedLines, ← trimEnd_cons]

/-- A line that can be told from its text: it is not blank, nothing in it ends a
    line, and it does not end in blanks. -/
structure Tidy (l : Text) : Prop where
  not_blank : ∃ c ∈ l, isBlank c = false
  no_break : ∀ c ∈ l, isBreak c = false
  no_blank_end : ∀ c, l.getLast? = some c → isBlank c = false

theorem tidy_iff (l : Text) :
    Tidy l ↔ (l.any fun c => !isBlank c) = true ∧ (l.all fun c => !isBreak c) = true ∧
      (l.getLast?.all fun c => !isBlank c) = true := by
  simp only [List.any_eq_true, List.all_eq_true, Option.all_eq_true, Bool.not_eq_true']
  exact ⟨fun h => ⟨h.not_blank, h.no_break, h.no_blank_end⟩, fun h => ⟨h.1, h.2.1, h.2.2⟩⟩

instance (l : Text) : Decidable (Tidy l) := decidable_of_iff _ (tidy_iff l).symm

theorem tidy_of_not_isBlank (l : Text) (hne : l ≠ []) (h : ∀ c ∈ l, isBlank c = false) :
    Tidy l where
  not_blank := by
    rcases List.exists_cons_of_ne_nil hne with ⟨c, t, rfl⟩
    exact ⟨c, List.mem_cons_self, h c List.mem_cons_self⟩
  no_break := by
    intro c hc
    rw [← Bool.not_eq_true]
    intro hbreak
    have hblank := isBlank_of_isBreak hbreak
    rw [h c hc] at hblank
    exact Bool.false_ne_true hblank
  no_blank_end := fun c hc => h c (List.mem_of_getLast? hc)

theorem trimEnd_tidy (l : Text) (h : Tidy l) : trimEnd l = l :=
  trimEnd_eq_self l h.no_blank_end

theorem map_trimEnd_tidy (ls : List Text) (h : ∀ l ∈ ls, Tidy l) : ls.map trimEnd = ls :=
  (List.map_congr_left fun l hl => trimEnd_tidy l (h l hl)).trans (List.map_id' ls)

theorem tidy_ne_nil (l : Text) (h : Tidy l) : l ≠ [] := by
  rcases h.not_blank with ⟨c, hc, -⟩
  exact List.ne_nil_of_mem hc

theorem mem_of_mem_trimEnd (t : Text) (c : Char) (h : c ∈ trimEnd t) : c ∈ t := by
  rw [trimEnd, dropEndWhile_eq_rdropWhile] at h
  exact (List.rdropWhile_prefix isBlank t).subset h

theorem not_isBlank_of_getLast?_trimEnd (t : Text) (c : Char) (h : (trimEnd t).getLast? = some c) :
    isBlank c = false := by
  rw [trimEnd, dropEndWhile_eq_rdropWhile] at h
  have hne : t.rdropWhile isBlank ≠ [] := by
    intro hnil
    rw [hnil] at h
    exact absurd h (Option.some_ne_none c).symm
  have hlast := List.rdropWhile_last_not isBlank t hne
  rw [List.getLast?_eq_some_getLast hne, Option.some.injEq] at h
  rw [← h, ← Bool.not_eq_true]
  exact hlast

theorem mem_extendFirst (c : Char) (ls : List Text) (m : Text) (hm : m ∈ extendFirst c ls)
    (d : Char) (hd : d ∈ m) : d = c ∨ ∃ l ∈ ls, d ∈ l := by
  cases ls with
  | nil =>
      rw [extendFirst, List.mem_singleton] at hm
      rw [hm, List.mem_singleton] at hd
      exact Or.inl hd
  | cons l ls =>
      rw [extendFirst] at hm
      rcases List.mem_cons.mp hm with rfl | hm
      · exact (List.mem_cons.mp hd).imp_right fun hd => ⟨l, List.mem_cons_self, hd⟩
      · exact Or.inr ⟨m, List.mem_cons_of_mem l hm, hd⟩

-- A break ends its line, so it is trimmed with the blanks at the end.
theorem not_isBreak_of_mem_trimmedLines (t : Text) :
    ∀ l ∈ trimmedLines t, ∀ c ∈ l, isBreak c = false := by
  induction t with
  | nil => intro l hl; exact absurd hl List.not_mem_nil
  | cons d t ih =>
      have hempty : ∀ l ∈ [] :: trimmedLines t, ∀ c ∈ l, isBreak c = false := by
        intro l hl c hc
        rcases List.mem_cons.mp hl with rfl | hl
        · exact absurd hc List.not_mem_nil
        · exact ih l hl c hc
      by_cases hd : isBreak d = true
      · by_cases hr : d = '\r'
        · subst hr
          by_cases hhead : t.head? = some '\n'
          · rcases List.head?_eq_some_iff.mp hhead with ⟨u, rfl⟩
            rwa [trimmedLines_return_newline]
          · rwa [trimmedLines_return _ hhead]
        · rwa [trimmedLines_break _ _ hd hr]
      · rw [Bool.not_eq_true] at hd
        rw [trimmedLines_cons _ _ hd]
        intro l hl c hc
        rcases List.mem_map.mp hl with ⟨m, hm, rfl⟩
        rcases mem_extendFirst d _ m hm c (mem_of_mem_trimEnd m c hc) with rfl | ⟨l, hl, hcl⟩
        · exact hd
        · exact ih l hl c hcl

/-- A line of a text is tidy, unless it is blank. -/
theorem tidy_of_mem_trimmedLines (t l : Text) (hl : l ∈ trimmedLines t) (hne : l ≠ []) :
    Tidy l := by
  have hend : ∀ c, l.getLast? = some c → isBlank c = false := by
    rcases List.mem_map.mp hl with ⟨m, -, rfl⟩
    exact not_isBlank_of_getLast?_trimEnd m
  have hlast := List.getLast?_eq_some_getLast hne
  exact ⟨⟨_, List.getLast_mem hne, hend _ hlast⟩, not_isBreak_of_mem_trimmedLines t l hl, hend⟩

/-- Tidy lines that are joined come apart again. -/
theorem trimmedLines_joinWith (ls : List Text) (rest : Text) (hne : ls ≠ [])
    (h : ∀ l ∈ ls, Tidy l) :
    trimmedLines (joinWith "\n" ls ++ '\n' :: rest) = ls ++ trimmedLines rest := by
  induction ls with
  | nil => exact absurd rfl hne
  | cons l ls ih =>
      have hl := h l List.mem_cons_self
      cases ls with
      | nil =>
          rw [joinWith, List.intercalate_singleton, trimmedLines_line l rest hl.no_break,
            trimEnd_tidy l hl, List.singleton_append]
      | cons m ls =>
          have hrest := ih (List.cons_ne_nil m ls) fun n hn => h n (List.mem_cons_of_mem l hn)
          have happend : l ++ "\n".toList ++ joinWith "\n" (m :: ls) ++ '\n' :: rest
              = l ++ '\n' :: (joinWith "\n" (m :: ls) ++ '\n' :: rest) := by
            simp only [List.append_assoc]
            rfl
          rw [joinWith_cons_cons, happend, trimmedLines_line l _ hl.no_break, trimEnd_tidy l hl,
            hrest]
          rfl

theorem unifyBreaks_cons (c : Char) (t : Text) (hc : c ≠ '\r') :
    unifyBreaks (c :: t) = c :: unifyBreaks t := by
  rw [unifyBreaks, List.foldr_cons, addUnified, if_neg hc, ← unifyBreaks]

theorem unifyBreaks_return (t : Text) :
    unifyBreaks ('\r' :: t)
      = if t.head? = some '\n' then unifyBreaks t else '\n' :: unifyBreaks t := by
  have hflag : (t.foldr addUnified (false, [])).1 = decide (t.head? = some '\n') := by
    cases t with
    | nil => rfl
    | cons c t =>
        rw [List.foldr_cons, addUnified, List.head?_cons, decide_eq_decide]
        exact ⟨fun h => congrArg some h, fun h => Option.some.inj h⟩
  rw [unifyBreaks, List.foldr_cons, addUnified, if_pos rfl, hflag, ← unifyBreaks]
  by_cases h : t.head? = some '\n'
  · rw [if_pos h, if_pos (decide_eq_true h)]
  · rw [if_neg h, if_neg (by rw [decide_eq_true_eq]; exact h)]

/-- Writing every carriage return as a line feed changes no line. -/
theorem trimmedLines_unifyBreaks (t : Text) : trimmedLines (unifyBreaks t) = trimmedLines t := by
  induction t with
  | nil => rfl
  | cons c t ih =>
      by_cases hr : c = '\r'
      · subst hr
        rw [unifyBreaks_return]
        by_cases hhead : t.head? = some '\n'
        · rcases List.head?_eq_some_iff.mp hhead with ⟨u, hu⟩
          rw [if_pos hhead, ih, hu, trimmedLines_return_newline]
        · rw [if_neg hhead, trimmedLines_newline, ih, trimmedLines_return _ hhead]
      · rw [unifyBreaks_cons _ _ hr]
        by_cases hc : isBreak c = true
        · rw [trimmedLines_break _ _ hc hr, trimmedLines_break _ _ hc hr, ih]
        · rw [Bool.not_eq_true] at hc
          rw [trimmedLines_cons _ _ hc, trimmedLines_cons _ _ hc, ih]

end Text

end Captions
