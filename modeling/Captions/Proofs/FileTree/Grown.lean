import Captions.FileTree
import Captions.Proofs.Outcome
import Mathlib.Logic.Relation

/-!
# Trees in Which a File Grows

What becomes of a tree when one of its files is written to again and again.

A file is made in a folder that is there, so making it adds no folder, and every
other location holds what it held. From then on the path leads to the file that
is there, and the tree keeps its shape: the same locations are files and the
same are folders. Where a path leads depends on the shape alone, and so does
whether a folder can be made or a file be written. A log that grows is therefore
in nobody's way once it is open.

## Main definitions

* `FileTree.LeadsTo`: A path leads to a file, or to where one can be made.
* `FileTree.Grows`: A tree comes of another by appends to one file.
* `FileTree.SameShape`: Two trees have their files and folders at the same
  locations.

## Theorems

* `node?_put_of_ne`: What a change at one location means for the others.
* `node?_of_update`: A file that is written leaves the other locations alone.
* `find_of_update`: The path leads to the file from then on.
* `node?_of_grows`: Growing leaves the other locations alone.
* `sameShape_of_grows`: A file that is there can grow without a change of shape.
* `makeFolders_of_sameShape`, `write_of_sameShape`: What the shape decides.
-/

namespace Captions

namespace FileTree

/-! ### Locations -/

/-- A location is on the way to the working folder or to something listed. -/
def Passes (tree : FileTree) (q : Location) : Prop :=
  q <+: tree.here ∨ ∃ e ∈ tree.entries, q <+: e.1

instance (tree : FileTree) (q : Location) : Decidable (tree.Passes q) :=
  inferInstanceAs (Decidable (_ ∨ _))

theorem passes_put (tree : FileTree) (place q : Location) (node : Node) :
    (tree.put place node).Passes q ↔ tree.Passes q ∨ q <+: place := by
  simp only [Passes, put, List.mem_cons, List.mem_filter, decide_eq_true_eq]
  constructor
  · rintro (hhere | ⟨e, rfl | ⟨he, _⟩, hq⟩)
    · exact Or.inl (Or.inl hhere)
    · exact Or.inr hq
    · exact Or.inl (Or.inr ⟨e, he, hq⟩)
  · rintro ((hhere | ⟨e, he, hq⟩) | hplace)
    · exact Or.inl hhere
    · refine Or.inr ?_
      -- What is listed at the location itself makes room for what is put there.
      by_cases heq : e.1 = place
      · exact ⟨_, Or.inl rfl, heq ▸ hq⟩
      · exact ⟨e, Or.inr ⟨he, heq⟩, hq⟩
    · exact Or.inr ⟨_, Or.inl rfl, hplace⟩

theorem node?_of_listed (tree : FileTree) (q : Location) (e : Location × Node)
    (h : tree.entries.find? (fun e => e.1 = q) = some e) : tree.node? q = some e.2 := by
  rw [node?, h]

theorem node?_of_not_listed (tree : FileTree) (q : Location)
    (h : tree.entries.find? (fun e => e.1 = q) = none) :
    tree.node? q = if tree.Passes q then some .folder else none := by
  rw [node?, h]
  refine if_congr ?_ rfl rfl
  simp only [Passes, List.any_eq_true, List.isPrefixOf_iff_prefix]

theorem node?_put_self (tree : FileTree) (place : Location) (node : Node) :
    (tree.put place node).node? place = some node :=
  node?_of_listed _ _ (place, node) (by simp only [put, List.find?_cons, decide_true])

theorem find?_put_of_ne (tree : FileTree) (place q : Location) (node : Node) (h : q ≠ place) :
    (tree.put place node).entries.find? (fun e => e.1 = q)
      = tree.entries.find? (fun e => e.1 = q) := by
  simp only [put, List.find?_cons, h.symm, decide_false, List.find?_filter]
  congr 1
  funext e
  by_cases he : e.1 = q
  · simp only [he, h, ne_eq, not_false_eq_true, decide_true, and_self]
  · simp only [he, decide_false, Bool.false_eq_true, and_false]

/-- Putting something at a location makes folders of the locations on the way to
    it that hold nothing, and changes no other. -/
theorem node?_put_of_ne (tree : FileTree) (place q : Location) (node : Node) (h : q ≠ place) :
    (tree.put place node).node? q
      = (tree.node? q).or (if q <+: place then some .folder else none) := by
  have hfind := find?_put_of_ne tree place q node h
  rcases hlisted : tree.entries.find? (fun e => e.1 = q) with _ | e
  · rw [node?_of_not_listed _ q (hfind.trans hlisted), node?_of_not_listed tree q hlisted]
    simp only [passes_put]
    by_cases hpasses : tree.Passes q
    · rw [if_pos (Or.inl hpasses), if_pos hpasses, Option.some_or]
    · rw [if_neg hpasses, Option.none_or]
      simp only [hpasses, false_or]
  · rw [node?_of_listed _ q e (hfind.trans hlisted), node?_of_listed tree q e hlisted,
      Option.some_or]

/-- Everything on the way to a location is there. -/
def HasWay (tree : FileTree) (place : Location) : Prop :=
  ∀ q, q <+: place → tree.node? q ≠ none

theorem hasWay_here (tree : FileTree) (place : Location) (h : place <+: tree.here) :
    tree.HasWay place := by
  intro q hq
  rw [node?]
  split
  · exact Option.some_ne_none _
  · rw [if_pos (Or.inl (List.isPrefixOf_iff_prefix.mpr (hq.trans h)))]
    exact Option.some_ne_none _

theorem hasWay_dropLast (tree : FileTree) (place : Location) (h : tree.HasWay place) :
    tree.HasWay place.dropLast :=
  fun q hq => h q (hq.trans (List.dropLast_prefix place))

theorem hasWay_append (tree : FileTree) (place : Location) (n : Text) (h : tree.HasWay place)
    (hnode : tree.node? (place ++ [n]) ≠ none) : tree.HasWay (place ++ [n]) := by
  intro q hq
  rcases List.prefix_concat_iff.mp hq with rfl | hq
  · exact hnode
  · exact h q hq

/-! ### Walking -/

/-- Where a file is found, or a place for one. -/
def Found.place? : Found → Option Location
  | .file place _ => some place
  | .vacant place => some place
  | .folder _ => none

/-- A path leads to a file, or to where one can be made. -/
def LeadsTo (tree : FileTree) (p : FilePath) (place : Location) : Prop :=
  ∃ found, tree.find p = .ok found ∧ found.place? = some place

/-- What is found is what is there. -/
def Found.Fits (tree : FileTree) : Found → Prop
  | .file place content => tree.node? place = some (.file content) ∧ tree.HasWay place
  | .vacant place =>
    tree.node? place = none ∧ ∀ q, q <+: place → q ≠ place → tree.node? q ≠ none
  | .folder _ => True

theorem fits_of_findFrom (tree : FileTree) (names : List Text) (found : Found) :
    ∀ here, tree.HasWay here → tree.findFrom here names = .ok found → found.Fits tree := by
  induction names with
  | nil =>
      intro here _ h
      rw [← Except.ok.inj h]
      trivial
  | cons n names ih =>
      intro here hway h
      rw [findFrom] at h
      split at h
      · exact ih _ (hasWay_dropLast tree here hway) h
      · split at h
        · exact absurd h (error_ne_ok _ _)
        · split at h
          · rename_i hnode
            refine ih _ (hasWay_append tree here n hway ?_) h
            rw [hnode]
            exact Option.some_ne_none _
          · rename_i content hnode
            split at h
            · rw [← Except.ok.inj h]
              refine ⟨hnode, hasWay_append tree here n hway ?_⟩
              rw [hnode]
              exact Option.some_ne_none _
            · exact absurd h (error_ne_ok _ _)
          · rename_i hnode
            split at h
            · rw [← Except.ok.inj h]
              refine ⟨hnode, fun q hq hne => hway q ?_⟩
              exact (List.prefix_concat_iff.mp hq).resolve_left hne
            · exact absurd h (error_ne_ok _ _)

theorem fits_of_find (tree : FileTree) (p : FilePath) (found : Found)
    (h : tree.find p = .ok found) : found.Fits tree := by
  rw [find] at h
  split at h
  · exact absurd h (error_ne_ok _ _)
  · split at h
    · exact absurd h (error_ne_ok _ _)
    · refine fits_of_findFrom tree p.names found _ (hasWay_here tree _ ?_) h
      split
      · exact List.prefix_rfl
      · exact List.nil_prefix

theorem eq_of_leadsTo (tree : FileTree) (p : FilePath) (place q : Location)
    (hplace : tree.LeadsTo p place) (hq : tree.LeadsTo p q) : q = place := by
  rcases hplace with ⟨found, hfound, hplace⟩
  rcases hq with ⟨_, hagain, hq⟩
  rw [hfound, Except.ok.injEq] at hagain
  rw [← hagain, hplace] at hq
  exact (Option.some.inj hq).symm

/-- Where a path leads there is no folder, but there is everything on the way. -/
theorem node?_of_leadsTo (tree : FileTree) (p : FilePath) (place : Location)
    (h : tree.LeadsTo p place) :
    tree.node? place ≠ some .folder ∧ ∀ q, q <+: place → q ≠ place → tree.node? q ≠ none := by
  rcases h with ⟨found, hfound, hplace⟩
  have hfits := fits_of_find tree p found hfound
  cases found with
  | file other content =>
      rcases hfits with ⟨hnode, hway⟩
      rw [← Option.some.inj hplace, hnode]
      exact ⟨fun heq => Node.noConfusion (Option.some.inj heq), fun q hq _ => hway q hq⟩
  | folder other => exact absurd hplace.symm (Option.some_ne_none _)
  | vacant other =>
      rcases hfits with ⟨hnode, hway⟩
      rw [← Option.some.inj hplace, hnode]
      exact ⟨(Option.some_ne_none _).symm, hway⟩

/-- Where something is put that a path leads to, nothing changes elsewhere. -/
theorem node?_put_of_leadsTo (tree : FileTree) (p : FilePath) (place q : Location) (node : Node)
    (h : tree.LeadsTo p place) (hq : q ≠ place) :
    (tree.put place node).node? q = tree.node? q := by
  have hway := (node?_of_leadsTo tree p place h).2 q
  rw [node?_put_of_ne tree place q node hq]
  rcases hnode : tree.node? q with _ | other
  · rw [Option.none_or, if_neg fun hprefix => hway hprefix hq hnode]
  · rw [Option.some_or]

/-- A file that is put where a walk ends is found there from then on. -/
theorem findFrom_put (tree : FileTree) (place : Location) (content : Octets) (names : List Text)
    (found : Found) (hplace : found.place? = some place) (hnode : tree.node? place ≠ some .folder) :
    ∀ here, tree.findFrom here names = .ok found →
      (tree.put place (.file content)).findFrom here names = .ok (.file place content) := by
  induction names with
  | nil =>
      intro here h
      rw [← Except.ok.inj h] at hplace
      exact absurd hplace.symm (Option.some_ne_none _)
  | cons n names ih =>
      intro here h
      rw [findFrom] at h ⊢
      split at h
      · rename_i hup
        rw [if_pos hup]
        exact ih _ h
      · rename_i hup
        rw [if_neg hup]
        split at h
        · exact absurd h (error_ne_ok _ _)
        · rename_i hlong
          rw [if_neg hlong]
          split at h
          · -- The walk goes on through a folder, which is not the place where it ends.
            rename_i hfolder
            have hne : here ++ [n] ≠ place := fun heq => hnode (heq ▸ hfolder)
            rw [node?_put_of_ne tree place _ _ hne, hfolder, Option.some_or]
            exact ih _ h
          all_goals
            split at h
            · rename_i hlast
              rw [← Except.ok.inj h, Found.place?, Option.some.injEq] at hplace
              rw [hplace, node?_put_self]
              exact if_pos hlast
            · exact absurd h (error_ne_ok _ _)

theorem find_put (tree : FileTree) (p : FilePath) (place : Location) (content : Octets)
    (h : tree.LeadsTo p place) :
    (tree.put place (.file content)).find p = .ok (.file place content) := by
  have hnode := (node?_of_leadsTo tree p place h).1
  rcases h with ⟨found, hfound, hplace⟩
  rw [find] at hfound ⊢
  split at hfound
  · exact absurd hfound (error_ne_ok _ _)
  · rename_i hnull
    rw [if_neg hnull]
    split at hfound
    · exact absurd hfound (error_ne_ok _ _)
    · rename_i hlong
      rw [if_neg hlong]
      exact findFrom_put tree place content p.names found hplace hnode _ hfound

/-! ### Writing -/

/-- What is written is put where the path leads. -/
theorem update_eq_ok (tree tree' : FileTree) (p : FilePath) (f : Octets → Octets)
    (h : tree.update p f = .ok tree') :
    ∃ place content, tree.LeadsTo p place ∧ tree' = tree.put place (.file content) := by
  rw [update] at h
  split at h
  · rename_i place content hfound
    exact ⟨place, f content, ⟨_, hfound, rfl⟩, (Except.ok.inj h).symm⟩
  · rename_i place hfound
    exact ⟨place, f [], ⟨_, hfound, rfl⟩, (Except.ok.inj h).symm⟩
  · exact absurd h (error_ne_ok _ _)
  · exact absurd h (error_ne_ok _ _)

/-- A file that is written leaves the other locations alone. -/
theorem node?_of_update (tree tree' : FileTree) (p : FilePath) (f : Octets → Octets)
    (h : tree.update p f = .ok tree') (q : Location) (hq : ¬ tree.LeadsTo p q) :
    tree'.node? q = tree.node? q := by
  rcases update_eq_ok tree tree' p f h with ⟨place, content, hplace, rfl⟩
  exact node?_put_of_leadsTo tree p place q _ hplace fun heq => hq (heq ▸ hplace)

/-- The path leads to the file that is written from then on. -/
theorem find_of_update (tree tree' : FileTree) (p : FilePath) (f : Octets → Octets)
    (h : tree.update p f = .ok tree') :
    ∃ place content, tree.LeadsTo p place ∧ tree'.find p = .ok (.file place content) := by
  rcases update_eq_ok tree tree' p f h with ⟨place, content, hplace, rfl⟩
  exact ⟨place, content, hplace, find_put tree p place content hplace⟩

/-! ### Growing -/

/-- A tree comes of another by appends to one file, if there is one. -/
def Grows (file : Option FilePath) : FileTree → FileTree → Prop :=
  Relation.ReflTransGen fun tree tree' =>
    ∃ p octets, file = some p ∧ tree.append p octets = .ok tree'

/-- Growing leaves the other locations alone. -/
theorem node?_of_grows (file : Option FilePath) (tree tree' : FileTree)
    (h : Grows file tree tree') (q : Location) (hq : ∀ p, file = some p → ¬ tree.LeadsTo p q) :
    tree'.node? q = tree.node? q := by
  induction h using Relation.ReflTransGen.head_induction_on with
  | refl => rfl
  | head hstep _ ih =>
      rcases hstep with ⟨p, octets, rfl, happend⟩
      rcases find_of_update _ _ p _ happend with ⟨place, content, hplace, hfound⟩
      refine (ih ?_).trans (node?_of_update _ _ p _ happend q (hq p rfl))
      rintro _ ⟨⟩ hleads
      -- The file is still where it was, and that is not the location.
      have heq := eq_of_leadsTo _ p place q ⟨_, hfound, rfl⟩ hleads
      exact hq p rfl (heq ▸ hplace)

/-! ### Shapes -/

/-- What is at a location, with the content of a file left out. -/
def Node.emptied : Node → Node
  | .file _ => .file []
  | .folder => .folder

/-- What a path leads to, with the content of a file left out. -/
def Found.emptied : Found → Found
  | .file place _ => .file place []
  | found => found

/-- Two trees have their files and folders at the same locations. -/
def SameShape (tree tree' : FileTree) : Prop :=
  tree.here = tree'.here ∧
    ∀ q, (tree.node? q).map Node.emptied = (tree'.node? q).map Node.emptied

theorem sameShape_refl (tree : FileTree) : tree.SameShape tree := ⟨rfl, fun _ => rfl⟩

theorem sameShape_trans (tree tree' tree'' : FileTree) (h : tree.SameShape tree')
    (h' : tree'.SameShape tree'') : tree.SameShape tree'' :=
  ⟨h.1.trans h'.1, fun q => (h.2 q).trans (h'.2 q)⟩

theorem sameShape_put (tree tree' : FileTree) (place : Location) (node : Node)
    (h : tree.SameShape tree') : (tree.put place node).SameShape (tree'.put place node) := by
  refine ⟨h.1, fun q => ?_⟩
  by_cases hq : q = place
  · rw [hq, node?_put_self, node?_put_self]
  · rw [node?_put_of_ne tree place q node hq, node?_put_of_ne tree' place q node hq, Option.map_or,
      Option.map_or, h.2 q]

theorem findFrom_of_sameShape (tree tree' : FileTree) (h : tree.SameShape tree')
    (names : List Text) :
    ∀ here, (tree.findFrom here names).map Found.emptied
      = (tree'.findFrom here names).map Found.emptied := by
  induction names with
  | nil => intro here; rfl
  | cons n names ih =>
      intro here
      have hnode := h.2 (here ++ [n])
      rw [findFrom, findFrom]
      split
      · exact ih _
      · split
        · rfl
        · generalize tree.node? (here ++ [n]) = x at hnode ⊢
          generalize tree'.node? (here ++ [n]) = y at hnode ⊢
          rcases x with _ | _ | _ <;> rcases y with _ | _ | _ <;>
            simp only [Option.map, Node.emptied, reduceCtorEq, Option.some.injEq] at hnode
          · rfl
          · by_cases hlast : names = []
            · simp only [if_pos hlast]
              rfl
            · simp only [if_neg hlast]
          · exact ih _

/-- Where a path leads depends on the shape alone. -/
theorem find_of_sameShape (tree tree' : FileTree) (p : FilePath) (h : tree.SameShape tree') :
    (tree.find p).map Found.emptied = (tree'.find p).map Found.emptied := by
  rw [find, find]
  split
  · rfl
  · split
    · rfl
    · rw [h.1]
      exact findFrom_of_sameShape tree tree' h p.names _

/-- Two changes of a tree fail alike, or leave trees of the same shape. -/
def SameOutcome {ε : Type} (x y : Except ε FileTree) : Prop :=
  (∃ fault, x = .error fault ∧ y = .error fault) ∨
    ∃ tree tree', x = .ok tree ∧ y = .ok tree' ∧ tree.SameShape tree'

theorem makeFolder_of_sameShape (tree tree' : FileTree) (p : FilePath)
    (h : tree.SameShape tree') : SameOutcome (tree.makeFolder p) (tree'.makeFolder p) := by
  have hfind := find_of_sameShape tree tree' p h
  rw [makeFolder, makeFolder]
  generalize tree.find p = x at hfind ⊢
  generalize tree'.find p = y at hfind ⊢
  rcases x with fault | place | place | place <;>
    rcases y with fault' | place' | place' | place' <;>
    simp only [Except.map, Found.emptied, reduceCtorEq, Except.error.injEq, Except.ok.injEq,
      Found.file.injEq, Found.folder.injEq, Found.vacant.injEq] at hfind
  · exact Or.inl ⟨fault, rfl, congrArg Except.error hfind.symm⟩
  · exact Or.inl ⟨.exists, rfl, rfl⟩
  · exact Or.inr ⟨tree, tree', rfl, rfl, h⟩
  · rw [hfind]
    exact Or.inr ⟨_, _, rfl, rfl, sameShape_put tree tree' place' .folder h⟩

theorem makeFoldersAt_of_sameShape (root : Text) (reversed : List Text) :
    ∀ tree tree' : FileTree, tree.SameShape tree' →
      SameOutcome (makeFoldersAt root reversed tree) (makeFoldersAt root reversed tree') := by
  induction reversed with
  | nil =>
      intro tree tree' h
      rw [makeFoldersAt, makeFoldersAt]
      rcases makeFolder_of_sameShape tree tree' ⟨root, []⟩ h with
        ⟨fault, hx, hy⟩ | ⟨made, made', hx, hy, hmade⟩ <;> rw [hx, hy]
      · exact Or.inl ⟨_, rfl, rfl⟩
      · exact Or.inr ⟨made, made', rfl, rfl, hmade⟩
  | cons n above ih =>
      intro tree tree' h
      rw [makeFoldersAt, makeFoldersAt]
      generalize FilePath.mk root (n :: above).reverse = p
      rcases makeFolder_of_sameShape tree tree' p h with
        ⟨fault, hx, hy⟩ | ⟨made, made', hx, hy, hmade⟩ <;> simp only [hx, hy]
      · by_cases hmissing : fault = .notFound
        · subst hmissing
          -- The folder above is made first, and that goes alike as well.
          rcases ih tree tree' h with ⟨fault, hx, hy⟩ | ⟨above, above', hx, hy, habove⟩ <;>
            simp only [hx, hy]
          · exact Or.inl ⟨fault, rfl, rfl⟩
          · simp only [ok_bind]
            rcases makeFolder_of_sameShape above above' p habove with
              ⟨fault, hx, hy⟩ | ⟨made, made', hx, hy, hmade⟩ <;> simp only [hx, hy]
            · exact Or.inl ⟨_, rfl, rfl⟩
            · exact Or.inr ⟨made, made', rfl, rfl, hmade⟩
        · refine Or.inl ⟨⟨fault, p.text⟩, ?_, ?_⟩ <;> cases fault <;>
            first | rfl | exact absurd rfl hmissing
      · exact Or.inr ⟨made, made', rfl, rfl, hmade⟩

/-- Folders that can be made in a tree can be made in every tree of its shape. -/
theorem makeFolders_of_sameShape (tree tree' made : FileTree) (p : FilePath)
    (h : tree.SameShape tree') (hmade : tree.makeFolders p = .ok made) :
    ∃ made', tree'.makeFolders p = .ok made' ∧ made.SameShape made' := by
  rcases makeFoldersAt_of_sameShape p.root p.names.reverse tree tree' h with
    ⟨fault, hx, _⟩ | ⟨other, made', hx, hy, hsame⟩
  · exact absurd (hmade.symm.trans hx) (ok_ne_error _ _)
  · rw [Except.ok.inj (hmade.symm.trans hx)]
    exact ⟨made', hy, hsame⟩

/-- A file that can be written in a tree can be written in every tree of its
    shape, whatever the content. -/
theorem write_of_sameShape (tree tree' written : FileTree) (p : FilePath)
    (content content' : Octets) (h : tree.SameShape tree')
    (hwritten : tree.write p content = .ok written) :
    ∃ written', tree'.write p content' = .ok written' := by
  have hfind := find_of_sameShape tree tree' p h
  rw [write, update] at hwritten ⊢
  generalize tree.find p = x at hfind hwritten
  generalize tree'.find p = y at hfind ⊢
  rcases x with fault | place | place | place <;>
    rcases y with fault' | place' | place' | place' <;>
    simp only [Except.map, Found.emptied, reduceCtorEq, Except.ok.injEq] at hfind hwritten
  · exact ⟨_, rfl⟩
  · exact ⟨_, rfl⟩

/-- A file that is there can grow without a change of shape. -/
theorem sameShape_of_append (tree tree' : FileTree) (p : FilePath) (place : Location)
    (content octets : Octets) (hfound : tree.find p = .ok (.file place content))
    (happend : tree.append p octets = .ok tree') :
    tree.SameShape tree' ∧ ∃ grown, tree'.find p = .ok (.file place grown) := by
  rw [append, update, hfound] at happend
  rw [← Except.ok.inj happend]
  have hleads : tree.LeadsTo p place := ⟨_, hfound, rfl⟩
  refine ⟨⟨rfl, fun q => ?_⟩, _, find_put tree p place _ hleads⟩
  by_cases hq : q = place
  · rw [hq, node?_put_self, (fits_of_find tree p _ hfound).1]
    rfl
  · rw [node?_put_of_leadsTo tree p place q _ hleads hq]

/-- A file that is there can grow more and more without a change of shape. -/
theorem sameShape_of_grows (file : Option FilePath) (tree tree' : FileTree)
    (h : Grows file tree tree')
    (hfound : ∀ p, file = some p → ∃ place content, tree.find p = .ok (.file place content)) :
    tree.SameShape tree' := by
  induction h using Relation.ReflTransGen.head_induction_on with
  | refl => exact sameShape_refl tree'
  | head hstep _ ih =>
      rcases hstep with ⟨p, octets, rfl, happend⟩
      rcases hfound p rfl with ⟨place, content, hplace⟩
      rcases sameShape_of_append _ _ p place content octets hplace happend with
        ⟨hshape, grown, hgrown⟩
      refine sameShape_trans _ _ _ hshape (ih ?_)
      rintro _ ⟨⟩
      exact ⟨place, grown, hgrown⟩

end FileTree

end Captions
