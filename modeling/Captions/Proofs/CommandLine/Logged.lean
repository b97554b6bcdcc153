import Captions.CommandLine
import Captions.Proofs.FileTree.Grown

/-!
# Stages of the Program

What the program goes through, and what the log has to do with it.

The program loads its settings, sets up the log, checks the rate of playback,
runs, and hands over what comes of it. It can end at each stage, and `run_cases`
and `process_cases` say how. Between the stages it logs. A notice is a message
and nothing else, and the only file that it touches is the log file, which grows.

The log file is named by a text, and by an empty one or by a value that counts as
nothing it is not named at all. Anything else is no name. It is opened before
anything is known of the run.

## Main definitions

* `logPath?`: The path of the log file.
* `NamesLog`, `NamesLevel`: What the log can be set up with.
* `Opens`: The tree once the log file is open.
* `Logged`: A session comes of another by logging.

## Theorems

* `logged_noteAll`: Notices are messages and let the log file grow.
* `setUpLog_eq_ok_iff`: When the log can be set up, and what the session is then.
* `run_cases`, `process_cases`: The stages of the program.
-/

namespace Captions

namespace CommandLine

/-! ### The log -/

/-- The path of the log file, if one is named. -/
def logPath? : Value → Option FilePath
  | .text t => if t = [] then none else some (FilePath.ofText t).lexical
  | _ => none

/-- The tree once the log file is open. It is made if it is missing. -/
def Opens (tree : FileTree) (file : Option FilePath) (opened : FileTree) : Prop :=
  match file with
  | none => opened = tree
  | some p => tree.append p [] = .ok opened

theorem grows_of_opens (tree : FileTree) (file : Option FilePath) (opened : FileTree)
    (h : Opens tree file opened) : FileTree.Grows file tree opened := by
  cases file with
  | none => exact h ▸ Relation.ReflTransGen.refl
  | some p => exact Relation.ReflTransGen.single ⟨p, [], rfl, h⟩

theorem opens_unique (tree : FileTree) (file : Option FilePath) (opened other : FileTree)
    (h : Opens tree file opened) (h' : Opens tree file other) : other = opened := by
  cases file with
  | none => exact h'.trans h.symm
  | some p => exact Except.ok.inj (h'.symm.trans h)

/-- The path of the log file leads to it once it is open. -/
theorem find_of_opens (tree : FileTree) (file : Option FilePath) (opened : FileTree)
    (h : Opens tree file opened) (p : FilePath) (hp : file = some p) :
    ∃ place content, opened.find p = .ok (.file place content) := by
  subst hp
  rcases FileTree.find_of_update tree opened p _ h with ⟨place, content, _, hfound⟩
  exact ⟨place, content, hfound⟩

/-- A value names a log file, or counts as nothing. -/
def NamesLog (file : Value) : Prop := file.isSet = true → ∃ t, file = .text t

/-- A value names a level: it is a text that is not reserved. -/
def NamesLevel (level : Value) : Prop := ∃ name, level = .text name ∧ reserved? name = none

/-- An effect is no more than a message, on the error output or in the log. -/
def Effect.IsMessage : Effect → Prop
  | .complain _ => True
  | .record _ => True
  | _ => False

/-- A session comes of another by logging. -/
structure Logged (s s' : Session) : Prop where
  /-- The log is as it was. -/
  log : s'.log = s.log
  /-- There are more messages. -/
  effects : ∃ es, s'.effects = es ++ s.effects ∧ ∀ e ∈ es, e.IsMessage
  /-- The log file has grown. -/
  tree : FileTree.Grows (s.log.bind Log.file) s.tree s'.tree

theorem logged_refl (s : Session) : Logged s s :=
  ⟨rfl, ⟨[], rfl, fun _ h => absurd h List.not_mem_nil⟩, Relation.ReflTransGen.refl⟩

theorem logged_trans (s s' s'' : Session) (h : Logged s s') (h' : Logged s' s'') :
    Logged s s'' := by
  rcases h with ⟨hlog, ⟨es, heffects, hes⟩, htree⟩
  rcases h' with ⟨hlog', ⟨es', heffects', hes'⟩, htree'⟩
  refine ⟨hlog'.trans hlog, ⟨es' ++ es, ?_, ?_⟩, htree.trans (hlog ▸ htree')⟩
  · rw [heffects', heffects, List.append_assoc]
  · exact List.forall_mem_append.mpr ⟨hes', hes⟩

theorem logged_act (s : Session) (e : Effect) (he : e.IsMessage) : Logged s (s.act e) :=
  ⟨rfl, ⟨[e], rfl, fun _ h => List.mem_singleton.mp h ▸ he⟩, Relation.ReflTransGen.refl⟩

theorem logged_note (s : Session) (n : Notice) : Logged s (s.note n) := by
  rw [Session.note]
  rcases hlog : s.log with _ | log
  · simp only []
    split
    · exact logged_act s _ trivial
    · exact logged_refl s
  · simp only []
    split
    · rcases hfile : log.file with _ | p
      · exact logged_act s _ trivial
      · simp only []
        rcases happend : (s.act (.record n)).tree.append p
          (Utf8.encode (logLine "*" n ++ "\n")) with fault | tree
        · exact logged_act s _ trivial
        · refine ⟨rfl, (logged_act s (.record n) trivial).effects, ?_⟩
          rw [hlog]
          exact Relation.ReflTransGen.single ⟨p, _, hfile, happend⟩
    · exact logged_refl s

/-- Notices are messages and let the log file grow. -/
theorem logged_noteAll (ns : List Notice) : ∀ s : Session, Logged s (s.noteAll ns) := by
  induction ns with
  | nil => intro s; exact logged_refl s
  | cons n ns ih => intro s; exact logged_trans s _ _ (logged_note s n) (ih _)

/-- A session once the log file is open. -/
def Session.opening (s : Session) (file : Option FilePath) (opened : FileTree) : Session :=
  { s with tree := opened, effects := file.toList.map Effect.openLog ++ s.effects }

theorem logPath?_of_open (file : Value) (h : file.isSet = false) : logPath? file = none := by
  cases file with
  | text t =>
      rw [Value.isSet, Bool.not_eq_false', List.isEmpty_iff] at h
      exact if_pos h
  | _ => rfl

theorem openLog_eq_ok_iff (s s' : Session) (file : Value) (p : Option FilePath) :
    openLog s file = .ok (s', p) ↔
      NamesLog file ∧ p = logPath? file ∧
        ∃ opened, Opens s.tree (logPath? file) opened ∧ s' = s.opening (logPath? file) opened := by
  unfold openLog
  rcases hset : file.isSet with _ | _
  · rw [if_neg Bool.false_ne_true, logPath?_of_open file hset, Except.ok.injEq, Prod.mk.injEq]
    constructor
    · rintro ⟨rfl, rfl⟩
      exact ⟨fun h => absurd h (Bool.not_eq_true _ ▸ hset), rfl, s.tree, rfl, rfl⟩
    · rintro ⟨_, rfl, _, rfl, rfl⟩
      exact ⟨rfl, rfl⟩
  · rw [if_pos rfl]
    cases file with
    | text t =>
        have hnil : t ≠ [] := by
          rintro rfl
          exact absurd hset Bool.false_ne_true
        simp only [logPath?, if_neg hnil, Opens]
        rcases s.tree.append (FilePath.ofText t).lexical [] with fault | opened
        · simp only [reduceCtorEq, false_and, exists_false, and_false]
        · rw [Except.ok.injEq, Prod.mk.injEq]
          constructor
          · rintro ⟨rfl, rfl⟩
            exact ⟨fun _ => ⟨t, rfl⟩, rfl, opened, rfl, rfl⟩
          · rintro ⟨_, rfl, _, hopened, rfl⟩
            rw [← Except.ok.inj hopened]
            exact ⟨rfl, rfl⟩
    | _ =>
        refine iff_of_false (error_ne_ok _ _) ?_
        rintro ⟨hnames, _⟩
        rcases hnames hset with ⟨_, htext⟩
        exact Value.noConfusion htext

/-- The log can be set up if its level and its file are named and the file can be
    opened. -/
theorem setUpLog_eq_ok_iff (s s' : Session) (level file : Value) :
    setUpLog s level file = .ok s' ↔
      NamesLog file ∧ ∃ name opened, level = .text name ∧ reserved? name = none ∧
        Opens s.tree (logPath? file) opened ∧
        s' = { s.opening (logPath? file) opened with
          log := some ⟨threshold name, logPath? file⟩ } := by
  rw [setUpLog]
  rcases hopen : openLog s file with fault | ⟨opening, p⟩
  · refine iff_of_false (error_ne_ok _ _) ?_
    rintro ⟨hnames, _, opened, _, _, hopens, _⟩
    have hok := (openLog_eq_ok_iff s _ file _).mpr ⟨hnames, rfl, opened, hopens, rfl⟩
    exact absurd (hopen.symm.trans hok) (error_ne_ok _ _)
  · rcases (openLog_eq_ok_iff s opening file p).mp hopen with ⟨hnames, rfl, opened, hopens, rfl⟩
    cases level with
    | text name =>
        simp only []
        rcases hreserved : reserved? name with _ | r
        · simp only [Except.ok.injEq, Value.text.injEq]
          constructor
          · rintro rfl
            exact ⟨hnames, name, opened, rfl, hreserved, hopens, rfl⟩
          · rintro ⟨_, _, other, rfl, _, hother, rfl⟩
            rw [opens_unique _ _ opened other hopens hother]
        · refine iff_of_false (error_ne_ok _ _) ?_
          rintro ⟨_, _, _, heq, hnone, _⟩
          rw [← Value.text.inj heq, hreserved] at hnone
          exact absurd hnone (Option.some_ne_none _)
    | _ =>
        refine iff_of_false (error_ne_ok _ _) ?_
        rintro ⟨_, _, _, heq, _⟩
        exact Value.noConfusion heq

/-! ### Stages -/

-- Without a log there is nothing that grows.
theorem tree_of_grows_none (tree tree' : FileTree) (h : FileTree.Grows none tree tree') :
    tree' = tree := by
  induction h with
  | refl => rfl
  | tail _ hstep _ =>
      rcases hstep with ⟨p, _, hp, _⟩
      exact absurd hp.symm (Option.some_ne_none p)

/-- Before the log is set up there are only complaints. -/
theorem logged_fresh (tree : FileTree) (notes : List Notice) :
    (Session.noteAll { tree := tree } notes).tree = tree ∧
      ∀ e ∈ (Session.noteAll { tree := tree } notes).effects, e.IsMessage := by
  rcases logged_noteAll notes { tree := tree } with ⟨_, ⟨es, heffects, hes⟩, htree⟩
  rw [List.append_nil] at heffects
  exact ⟨tree_of_grows_none tree _ htree, heffects ▸ hes⟩

/-- The program loads its settings and sets up the log before anything else. -/
theorem run_cases (tree : FileTree) (sleeper : Sleeper) (words : List Text) (a : Arguments)
    (hparse : parse words = .ok a) (hdescribe : a.describe = false) :
    (∃ notes fault, Settings.load tree a.config = (notes, .error fault) ∧
      (run tree sleeper words).2 = .failed (.settings fault)) ∨
    ∃ notes loaded settings, Settings.load tree a.config = (notes, .ok loaded) ∧
      settings = loaded.override a.overrides ∧
      ((∃ s f, setUpLog (Session.noteAll { tree := tree } notes) (levelOf a settings)
          settings.logging.file = .error (s, f) ∧ (run tree sleeper words).2 = .failed f) ∨
        ∃ s, setUpLog (Session.noteAll { tree := tree } notes) (levelOf a settings)
          settings.logging.file = .ok s ∧
          run tree sleeper words = proceed s sleeper a settings) := by
  have hrun : run tree sleeper words = runWith { tree := tree } sleeper a := by rw [run, hparse]
  rw [hrun, runWith, hdescribe, if_neg Bool.false_ne_true]
  rcases hload : Settings.load tree a.config with ⟨notes, fault | loaded⟩
  · exact Or.inl ⟨notes, fault, rfl, rfl⟩
  · refine Or.inr ⟨notes, loaded, _, rfl, rfl, ?_⟩
    simp only []
    rcases hlog : setUpLog (Session.noteAll { tree := tree } notes)
      (levelOf a (loaded.override a.overrides)) (loaded.override a.overrides).logging.file with
      ⟨s, f⟩ | s
    · exact Or.inl ⟨s, f, rfl, rfl⟩
    · exact Or.inr ⟨s, rfl, rfl⟩

/-- What comes of the run is noted and then handed over. -/
theorem process_cases (s : Session) (sleeper : Sleeper) (a : Arguments) (settings : Settings)
    (notes : List Notice) (result : Except Run.Interruption Run.Result)
    (hrun : Run.start s.tree settings.style settings.subtitleFile (.value .null)
      = (notes, result)) :
    (∃ i, result = .error i ∧
      process s sleeper a settings = (s.noteAll notes).fail (.run i)) ∨
    (∃ message, result = .ok (.failed message) ∧
      process s sleeper a settings
        = ((s.noteAll notes).act (.complain (errorLine message))).exit 1) ∨
    ∃ is, result = .ok (.completed is) ∧
      process s sleeper a settings = deliver (s.noteAll notes) sleeper a settings is := by
  rw [process, hrun]
  rcases result with i | is | message
  · exact Or.inl ⟨i, rfl, rfl⟩
  · exact Or.inr (Or.inr ⟨is, rfl, rfl⟩)
  · exact Or.inr (Or.inl ⟨message, rfl, rfl⟩)

end CommandLine

end Captions
