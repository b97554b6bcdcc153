import Captions.Proofs.Instruction.Listed

/-!
# The Entries of a Preview

How many lines a preview has, what each of them looks like, and what it depends
on.

The number of blocks is counted before the walk and the lines are made during
it, and the line at the end is the difference of the two. So it has to be known
how far the walk gets. Where all times are finite it only ends at the limit or
with the instructions, and the lines listed are the smaller of the two numbers.
A limit below zero is as good as zero.

An entry is one line for whoever takes the text apart, and not only at line
feeds. Its text is cut after eighty characters, and three more say that it is.

A line is made with the clock, and the clock knows the instructions before the
block and nothing else. The limit and what comes later decide whether the walk
arrives at the block, but not what it finds there.

## Main definitions

* `IsEntry`: Two times and a text on a single line.
* `StaysFinite`: Instructions whose clock stays finite.
* `entry`: The line of a block after the instructions before it.

## Theorems

* `isEntry_of_previewLine`: The line of a block is an entry.
* `length_previewLines`: How many blocks are listed.
* `preview_at`: Where the line of a block stands.
* `preview_accounts`: The lines of a preview, all of them.
-/

namespace Captions

namespace Instruction

open Text (Unbroken)

/-! ### What an entry looks like -/

-- Eighty characters and three points.
theorem length_excerpt (b : Block) : (excerpt b).length ≤ 83 := by
  rw [excerpt]
  split
  · rw [List.length_append, List.length_take]
    exact Nat.add_le_add (Nat.min_le_left _ _) (le_refl 3)
  · omega

/-- Two times and a text that is not too long, on a single line. -/
def IsEntry (line : Text) : Prop :=
  Unbroken line ∧ ∃ (start finish : Clock) (words : Text),
    line = "  [" ++ start.text ++ " → " ++ finish.text ++ "] " ++ words ∧ words.length ≤ 83

/-- The line of a block is an entry, whatever the block holds. -/
theorem isEntry_of_previewLine (now : Binary64) (b : Block) (line : Text)
    (h : previewLine now b = .ok line) : IsEntry line := by
  refine ⟨unbroken_line now b line h, ?_⟩
  rcases (previewLine_eq_ok_iff now b line).mp h with ⟨start, later, finish, _, _, _, rfl⟩
  exact ⟨start, finish, excerpt b, rfl, length_excerpt b⟩

/-! ### How many blocks are listed -/

/-- Instructions along which a clock stays finite, and is finite at the end of
    each block as well. -/
inductive StaysFinite : Binary64 → List Instruction → Prop
  | nil (clock : Binary64) : StaysFinite clock []
  | wait (clock next : Binary64) (delay : Number) (is : List Instruction)
      (hnext : advance clock delay = .ok next) (hfinite : next.isFinite = true)
      (hrest : StaysFinite next is) : StaysFinite clock (.wait delay :: is)
  | showText (clock later : Binary64) (b : Block) (is : List Instruction)
      (hlater : advance clock b.duration = .ok later) (hfinite : later.isFinite = true)
      (hrest : StaysFinite clock is) : StaysFinite clock (.showText b :: is)

/-- The walk ends at the limit, or with the instructions. -/
theorem length_previewLines (limit : Int) (clock : Binary64) (is : List Instruction)
    (h : StaysFinite clock is) :
    ∀ shown : Nat, ∃ lines, previewLines (.whole limit) clock shown is = .ok lines ∧
      lines.length = min (shownCount is) (limit - shown).toNat := by
  induction h with
  | nil clock => exact fun shown => ⟨[], rfl, (Nat.zero_min _).symm⟩
  | wait clock next delay is hnext _ _ ih =>
      intro shown
      rw [previewLines, hnext, ok_bind]
      exact ih shown
  | showText clock later b is hlater hfinite _ ih =>
      intro shown
      rw [previewLines]
      by_cases hlimit : limit ≤ shown
      · rw [if_pos ((Number.isAtMost_whole_iff limit shown).mpr hlimit),
          Int.toNat_of_nonpos (by omega), Nat.min_zero]
        exact ⟨[], rfl, rfl⟩
      · rcases previewLine_of_isFinite clock later b hlater hfinite with ⟨line, hline⟩
        rcases ih (shown + 1) with ⟨lines, hlines, hlength⟩
        rw [if_neg (fun hc => hlimit ((Number.isAtMost_whole_iff limit shown).mp hc)), hline,
          ok_bind, hlines, ok_bind]
        refine ⟨line :: lines, rfl, ?_⟩
        rw [List.length_cons, hlength, shownCount]
        omega

/-! ### The whole preview -/

/-- The line of a block after the instructions before it. -/
def entry (before : List Instruction) (b : Block) : Except PreviewFault Text :=
  clockAfter Binary64.zero before >>= fun now => previewLine now b

theorem entry_of_previewLines (limit : Int) (before after : List Instruction) (b : Block)
    (lines : List Text)
    (h : previewLines (.whole limit) Binary64.zero 0 (before ++ .showText b :: after) = .ok lines)
    (hlimit : (shownCount before : Int) < limit) :
    ∃ line, entry before b = .ok line ∧ lines[shownCount before]? = some line := by
  have hopen : (Number.whole limit).isAtMost ((0 + shownCount before : Nat) : Int) = false := by
    rw [← Bool.not_eq_true, Number.isAtMost_whole_iff]
    omega
  rcases previewLines_getElem? (.whole limit) _ _ 0 lines h before b after rfl hopen with
    ⟨now, line, hnow, hline, hget⟩
  exact ⟨line, by rw [entry, hnow, ok_bind, hline], hget⟩

-- Without any line listed there is still the number of those that are not.
theorem cutAt_preview_of_shown (limit : Number) (is : List Instruction) (lines : List Text)
    (h : previewLines limit Binary64.zero 0 is = .ok lines) (hshown : shownCount is ≠ 0) :
    Text.cutAt (· = '\n') (Text.joinWith "\n" (lines ++ remainder (shownCount is) lines.length))
      = lines ++ remainder (shownCount is) lines.length := by
  refine cutAt_preview limit is lines h fun hnil => ?_
  rcases List.append_eq_nil_iff.mp hnil with ⟨rfl, hrest⟩
  rw [remainder, List.length_nil, if_pos (Nat.pos_of_ne_zero hshown)] at hrest
  exact absurd hrest (List.cons_ne_nil _ _)

/-- The line of a block stands at its place in every preview that gets there. -/
theorem preview_at (limit : Int) (before after : List Instruction) (b : Block)
    (h : StaysFinite Binary64.zero (before ++ .showText b :: after))
    (hlimit : (shownCount before : Int) < limit) :
    ∃ text line, preview (.whole limit) (before ++ .showText b :: after) = .ok text ∧
      entry before b = .ok line ∧
      (Text.cutAt (· = '\n') text)[shownCount before]? = some line := by
  rcases length_previewLines limit _ _ h 0 with ⟨lines, hlines, _⟩
  rcases entry_of_previewLines limit before after b lines hlines hlimit with ⟨line, hline, hget⟩
  have hshown : shownCount (before ++ .showText b :: after) ≠ 0 := by
    rw [shownCount_append, shownCount]
    omega
  refine ⟨_, line, (preview_eq_ok _ _ _).mpr ⟨lines, hlines, rfl⟩, hline, ?_⟩
  rw [cutAt_preview_of_shown _ _ lines hlines hshown,
    List.getElem?_append_left (List.getElem?_eq_some_iff.mp hget).1, hget]

/-- The lines of a preview. There is one for each block within the limit, and
    after them one that counts the others, if there are others. Every entry is a
    single line, and depends on the instructions up to its block alone. -/
theorem preview_accounts (limit : Int) (is : List Instruction)
    (h : StaysFinite Binary64.zero is) :
    ∃ text entries, preview (.whole limit) is = .ok text ∧
      entries.length = min (shownCount is) (max limit 0).toNat ∧
      (shownCount is = 0 → text = []) ∧
      (shownCount is ≠ 0 → Text.cutAt (· = '\n') text = entries ++
        if entries.length < shownCount is then
          ["  ... and " ++ Text.digits (shownCount is - entries.length) ++ " more entries"]
        else []) ∧
      (∀ line ∈ entries, IsEntry line) ∧
      ∀ before b after, is = before ++ .showText b :: after → (shownCount before : Int) < limit →
        ∃ line, entry before b = .ok line ∧ entries[shownCount before]? = some line ∧
          ∀ (limit' : Int) (after' : List Instruction), (shownCount before : Int) < limit' →
            StaysFinite Binary64.zero (before ++ .showText b :: after') →
            ∃ text', preview (.whole limit') (before ++ .showText b :: after') = .ok text' ∧
              (Text.cutAt (· = '\n') text')[shownCount before]? = some line := by
  rcases length_previewLines limit _ is h 0 with ⟨entries, hentries, hlength⟩
  refine ⟨_, entries, (preview_eq_ok _ _ _).mpr ⟨entries, hentries, rfl⟩, ?_, fun hnone => ?_,
    cutAt_preview_of_shown _ is entries hentries, fun line hline => ?_, ?_⟩
  · rw [hlength]
    omega
  · rw [hnone, Nat.zero_min, List.length_eq_zero_iff] at hlength
    rw [hnone, hlength]
    rfl
  · rcases exists_of_mem_previewLines _ is _ 0 entries hentries line hline with ⟨now, b, hb⟩
    exact isEntry_of_previewLine now b line hb
  · rintro before b after rfl hlimit
    rcases entry_of_previewLines limit before after b entries hentries hlimit with
      ⟨line, hline, hget⟩
    refine ⟨line, hline, hget, fun limit' after' hlimit' hfinite => ?_⟩
    rcases preview_at limit' before after' b hfinite hlimit' with ⟨text', line', htext, hline', hat⟩
    rw [hline, Except.ok.injEq] at hline'
    exact ⟨text', htext, hline' ▸ hat⟩

/-- A block with three kinds of ends of lines in its text. -/
def broken : Block :=
  { html := "<b>one\u2028two</b>\r\nthree\u0085", duration := .double (.ofInt 2),
    width := .ofInt 300 }

/-- A wait of one second. -/
def pause : Instruction := .wait (.double (.ofInt 1))

/-- That block three times, the last time at the time of the first. -/
def brokenThrice : List Instruction :=
  [pause, .showText broken, pause, .showText broken, .wait (.double (.ofInt (-1))),
    .showText broken]

theorem preview_accounts_brokenThrice :
    StaysFinite Binary64.zero brokenThrice ∧
    (∃ text, preview (.whole (-5)) brokenThrice = .ok text ∧
      Text.cutAt (· = '\n') text = ["  ... and 3 more entries".toList]) ∧
    ∃ text first second, preview (.whole 2) brokenThrice = .ok text ∧
      Text.cutAt (· = '\n') text = [first, second, "  ... and 1 more entries".toList] ∧
      IsEntry first ∧ IsEntry second ∧ entry [pause] broken = .ok first ∧
      ∃ text', preview (.whole 1) [pause, .showText broken] = .ok text' ∧
        (Text.cutAt (· = '\n') text')[0]? = some first := by
  have hshort : StaysFinite Binary64.zero [pause, .showText broken] :=
    .wait _ _ _ _ (advance_double _ _) (by decide +kernel) <|
    .showText _ _ _ _ (advance_double _ _) (by decide +kernel) (.nil _)
  have hfinite : StaysFinite Binary64.zero brokenThrice :=
    .wait _ _ _ _ (advance_double _ _) (by decide +kernel) <|
    .showText _ _ _ _ (advance_double _ _) (by decide +kernel) <|
    .wait _ _ _ _ (advance_double _ _) (by decide +kernel) <|
    .showText _ _ _ _ (advance_double _ _) (by decide +kernel) <|
    .wait _ _ _ _ (advance_double _ _) (by decide +kernel) <|
    .showText _ _ _ _ (advance_double _ _) (by decide +kernel) (.nil _)
  refine ⟨hfinite, ?_, ?_⟩
  · rcases preview_accounts (-5) brokenThrice hfinite with
      ⟨text, entries, htext, hlength, _, hlines, _⟩
    refine ⟨text, htext, ?_⟩
    have hnone : entries = [] := List.length_eq_zero_iff.mp hlength
    rw [hlines (by decide), hnone]
    decide +kernel
  · rcases preview_accounts 2 brokenThrice hfinite with
      ⟨text, entries, htext, hlength, _, hlines, hentry, hplace⟩
    rcases List.length_eq_two.mp hlength with ⟨first, second, rfl⟩
    rcases hplace [pause] broken _ rfl (by decide) with ⟨line, hline, hat, hsame⟩
    rcases hsame 1 [] (by decide) hshort with ⟨text', htext', hat'⟩
    have hfirst : first = line := Option.some.inj hat
    rw [← hfirst] at hline hat'
    refine ⟨text, first, second, htext, ?_, hentry _ List.mem_cons_self,
      hentry _ (List.mem_cons_of_mem _ List.mem_cons_self), hline, text', htext', hat'⟩
    have hrest : ("  ... and " ++ Text.digits 1 ++ " more entries" : Text)
        = "  ... and 1 more entries".toList := by decide +kernel
    rw [hlines (by decide), ← hrest]
    rfl

end Instruction

end Captions
