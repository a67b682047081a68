import PeriodSheet.CommandLine.FileTree
import PeriodSheet.CommandLine.Program

/-!
# Running tasks on files

A task is told from its parts: what comes first decides what the rest meets (`runOn_bind_of_ok`,
`runOn_bind_of_error`).  A task that *only reads* leaves the files as they are; the loaders of
settings, catalogs and records are made of such steps.
-/

namespace PeriodSheet.CommandLine

variable {α β : Type}

theorem Script.runOn_bind (script : Script α) (next : α → Script β) (tree : FileTree) :
    (script >>= next).runOn tree =
      (next (script.runOn tree).1).runOn (script.runOn tree).2 := by
  show (script.bind next).runOn tree = _
  induction script generalizing tree with
  | done result => rfl
  | read path go ih => exact ih (tree.read path) tree
  | write path content go ih =>
    simp only [bind, runOn]
    cases tree.write? path content with
    | none => exact ih false tree
    | some changed => exact ih true changed

namespace Task

def runOn (tree : FileTree) (task : Task α) : Except (List Cause) α × FileTree :=
  task.run.runOn tree

def resultOn (tree : FileTree) (task : Task α) : Except (List Cause) α :=
  (task.runOn tree).1

variable {tree left : FileTree} {task : Task α} {next : α → Task β}

theorem runOn_bind_of_ok {a : α} (h : task.runOn tree = (.ok a, left)) :
    (task >>= next).runOn tree = (next a).runOn left := by
  unfold runOn at h
  show (task.run >>= ExceptT.bindCont next).runOn tree = _
  rw [Script.runOn_bind, h]
  rfl

theorem runOn_bind_of_error {causes : List Cause}
    (h : task.runOn tree = (.error causes, left)) :
    (task >>= next).runOn tree = (.error causes, left) := by
  unfold runOn at h
  show (task.run >>= ExceptT.bindCont next).runOn tree = _
  rw [Script.runOn_bind, h]
  rfl

theorem runOn_read (path : String) : (read path).runOn tree = (.ok (tree.read path), tree) :=
  rfl

theorem runOn_writeText_of_some {path content : String}
    (h : tree.write? path content = some left) (refused : String) :
    (writeText path content refused).runOn tree = (.ok (), left) := by
  have hanswer : runOn tree (ExceptT.mk (.write path content fun answer => .done (.ok answer))) =
      (.ok true, left) := by
    simp only [runOn, ExceptT.run, ExceptT.mk, Script.runOn, h]
  exact (runOn_bind_of_ok hanswer).trans rfl

theorem runOn_writeText_of_none {path content : String}
    (h : tree.write? path content = none) (refused : String) :
    (writeText path content refused).runOn tree =
      (.error [.message refused, .detail], tree) := by
  have hanswer : runOn tree (ExceptT.mk (.write path content fun answer => .done (.ok answer))) =
      (.ok false, tree) := by
    simp only [runOn, ExceptT.run, ExceptT.mk, Script.runOn, h]
  exact (runOn_bind_of_ok hanswer).trans rfl

/-! ### Tasks that only read -/

/-- Whether a task leaves all files as they are. -/
def OnlyReads (task : Task α) : Prop :=
  ∀ tree, (task.runOn tree).2 = tree

theorem OnlyReads.runOn_eq (h : task.OnlyReads) (tree : FileTree) :
    task.runOn tree = (task.resultOn tree, tree) :=
  Prod.ext rfl (h tree)

theorem OnlyReads.pure (a : α) : (pure a : Task α).OnlyReads :=
  fun _ => rfl

theorem OnlyReads.throw (causes : List Cause) : (throw causes : Task α).OnlyReads :=
  fun _ => rfl

theorem OnlyReads.read (path : String) : (read path).OnlyReads :=
  fun _ => rfl

theorem OnlyReads.bind (h : task.OnlyReads) (hnext : ∀ a, (next a).OnlyReads) :
    (task >>= next).OnlyReads := by
  intro tree
  have hrun := h.runOn_eq tree
  cases hresult : task.resultOn tree with
  | error causes => rw [runOn_bind_of_error (hresult ▸ hrun)]
  | ok a => rw [runOn_bind_of_ok (hresult ▸ hrun), hnext a tree]

/-- A task that only reads ends a run with its own failure, or hands its result on. -/
theorem OnlyReads.runOn_bind (h : task.OnlyReads) (next : α → Task β) (tree : FileTree) :
    (∃ causes, task.resultOn tree = .error causes ∧
        (task >>= next).runOn tree = (.error causes, tree)) ∨
      ∃ a, task.resultOn tree = .ok a ∧ (task >>= next).runOn tree = (next a).runOn tree := by
  have hrun := h.runOn_eq tree
  cases hresult : task.resultOn tree with
  | error causes => exact .inl ⟨causes, rfl, runOn_bind_of_error (hresult ▸ hrun)⟩
  | ok a => exact .inr ⟨a, rfl, runOn_bind_of_ok (hresult ▸ hrun)⟩

theorem OnlyReads.resultOn_bind_iff (h : task.OnlyReads) {b : β} :
    (task >>= next).resultOn tree = .ok b ↔
      ∃ a, task.resultOn tree = .ok a ∧ (next a).resultOn tree = .ok b := by
  obtain ⟨causes, hresult, hrun⟩ | ⟨a, hresult, hrun⟩ := h.runOn_bind next tree
  · have hbound : (task >>= next).resultOn tree = .error causes := congrArg Prod.fst hrun
    simp only [hbound, hresult, reduceCtorEq, false_and, exists_false]
  · have hbound : (task >>= next).resultOn tree = (next a).resultOn tree :=
      congrArg Prod.fst hrun
    simp only [hbound, hresult, Except.ok.injEq, exists_eq_left']

theorem OnlyReads.readText (path missing unreadable : String) :
    (readText path missing unreadable).OnlyReads := by
  refine .bind (.read path) fun answer => ?_
  cases answer with
  | missing => exact .throw _
  | unreadable => exact .throw _
  | text content => exact .pure content

theorem resultOn_readText_iff {path content missing unreadable : String} :
    (readText path missing unreadable).resultOn tree = .ok content ↔
      tree.read path = .text content := by
  have hread : (readText path missing unreadable).runOn tree = _ :=
    runOn_bind_of_ok (runOn_read path)
  rw [resultOn, hread]
  cases tree.read path with
  | missing => exact ⟨nofun, nofun⟩
  | unreadable => exact ⟨nofun, nofun⟩
  | text read => exact ⟨fun h => congrArg FileText.text (Except.ok.inj h),
      fun h => congrArg Except.ok (FileText.text.inj h)⟩

end Task

theorem onlyReads_overridden (surroundings : Surroundings) (settings : Settings) :
    (overridden surroundings settings).OnlyReads := by
  unfold overridden
  split
  · exact .pure _
  · exact .throw _

theorem onlyReads_settingsOfText (path content : String) :
    (settingsOfText path content).OnlyReads := by
  unfold settingsOfText
  split
  · exact .pure _
  · exact .throw _

theorem onlyReads_loadSettings (surroundings : Surroundings) (config : Option String) :
    (loadSettings surroundings config).OnlyReads := by
  refine .bind (.read _) fun answer => ?_
  cases answer with
  | text content =>
    exact .bind (onlyReads_settingsOfText _ content) fun settings =>
      onlyReads_overridden surroundings settings
  | unreadable => exact .throw _
  | missing =>
    show Task.OnlyReads (if config.isSome then _ else _)
    split
    · exact .throw _
    · exact onlyReads_overridden surroundings {}

/-- Without a file for them, the settings are the default ones with the overrides. -/
theorem resultOn_loadSettings_of_missing {surroundings : Surroundings} {tree : FileTree}
    (h : tree.read surroundings.defaultConfig = .missing) :
    (loadSettings surroundings none).resultOn tree =
      (overridden surroundings {}).resultOn tree := by
  have hread : (Task.read surroundings.defaultConfig).runOn tree = (.ok .missing, tree) :=
    (Task.runOn_read _).trans (by rw [h])
  exact congrArg Prod.fst (Task.runOn_bind_of_ok hread)

theorem onlyReads_loadCatalog (path : String) : (loadCatalog path).OnlyReads := by
  refine .bind (.readText _ _ _) fun content => ?_
  dsimp only
  split
  · exact .throw _
  · split
    · exact .throw _
    · exact .pure _

theorem onlyReads_findActivity (catalog : Catalog) (idOrName : String) :
    (findActivity catalog idOrName).OnlyReads := by
  unfold findActivity
  split
  · exact .pure _
  · exact .throw _

theorem onlyReads_loadRecords (path : String) : (loadRecords path).OnlyReads := by
  refine .bind (.readText _ _ _) fun content => ?_
  split
  · exact .pure _
  · exact .throw _

end PeriodSheet.CommandLine
