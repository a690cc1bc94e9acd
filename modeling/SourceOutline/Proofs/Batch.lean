import SourceOutline.Proofs.Tasks
import SourceOutline.Query.Engine

/-!
# Batches in Any Order

The files of a batch are analyzed side by side by one analyzer, each by a task of its own.
A schedule says whose turn it is, step by step; that one task after the other is executed
as a whole, in whatever order, is a special case. Since a step of a task leaves what all
tasks come to, every schedule has each task come to what it comes to alone.

When a task has its turns, it reads the clock at other times than it would alone. So every
task brings the clock along as it is read for it, and nothing is assumed of these clocks.
A task comes to what it comes to alone at all times that its runs cannot tell from those
(`QueryHandler.SameTimes`).

## Main results

* `Pool.Good.prospects_run`: a schedule leaves what all tasks come to, but for the numbers
  of the trees.
* `Pool.exists_ends_run`: a schedule with enough turns for each task finishes all of them.
* `Pool.run_oneByOne`: a batch is the schedule of one task after the other.
* `batch_order_irrelevant`: in any order a batch gives for each file what it gives alone.
-/

namespace SourceOutline

variable {Q : Type} {host : Host Q} {a : Analyzer Q}

/-- Tasks that share an analyzer, each with the clock as it is read for it. -/
structure Pool (Q : Type) where
  tasks : List (FileTask Q × (Category → Query.Clock))
  analyzer : Analyzer Q

namespace Pool

/-- The task of a file at its start. -/
def opening (file : Path × (Category → Query.Clock)) : FileTask Q × (Category → Query.Clock) :=
  (.opening file.1, file.2)

/-- The tasks of a batch at its start. -/
def start (files : List (Path × (Category → Query.Clock))) (a : Analyzer Q) : Pool Q where
  tasks := files.map opening
  analyzer := a

/-- Has a task take a step. -/
def turn (host : Host Q) (pool : Pool Q) (i : Nat) : Pool Q :=
  match pool.tasks[i]? with
  | none => pool
  | some (task, clocks) =>
    { tasks := pool.tasks.set i ((task.step (host.withClocks clocks) pool.analyzer).1, clocks)
      analyzer := (task.step (host.withClocks clocks) pool.analyzer).2 }

/-- Has tasks take steps, each time the one whose turn it is. -/
def run (host : Host Q) (schedule : List Nat) (pool : Pool Q) : Pool Q :=
  schedule.foldl (turn host) pool

/-- What the tasks come to, with all trees numbered `id`. -/
def prospects (host : Host Q) (id : Nat) (pool : Pool Q) :
    List (Except AnalyzerError Outline) :=
  pool.tasks.map fun task => outcomeAs id
    (task.1.finish (host.withClocks task.2) pool.analyzer).1

/-- All queries that are remembered, or about to be, are right. -/
structure Good (host : Host Q) (pool : Pool Q) : Prop where
  sound : pool.analyzer.handler.Sound host.engine
  coherent : ∀ task ∈ pool.tasks, task.1.Coherent host.engine pool.analyzer

variable {pool : Pool Q}

/-- A step of one task leaves all queries right: `turn` keeps the pool `Good`. -/
theorem Good.turn (h : pool.Good host) (i : Nat) : (pool.turn host i).Good host := by
  unfold Pool.turn
  cases htask : pool.tasks[i]? with
  | none => exact h
  | some task =>
    obtain ⟨hconcurs, hcoherent⟩ :=
      (h.coherent task (List.mem_of_getElem? htask)).step (host.withClocks task.2)
    refine ⟨hconcurs.handler.sound h.sound, fun other hother => ?_⟩
    rcases List.mem_or_eq_of_mem_set hother with hother | rfl
    · exact (h.coherent other hother).mono hconcurs
    · exact hcoherent

/-- A step of one task leaves the `prospects` of all. -/
theorem Good.prospects_turn (h : pool.Good host) (i id : Nat) :
    (pool.turn host i).prospects host id = pool.prospects host id := by
  unfold Pool.turn
  cases htask : pool.tasks[i]? with
  | none => rfl
  | some task =>
    obtain ⟨task, clocks⟩ := task
    obtain ⟨hconcurs, -⟩ :=
      (h.coherent _ (List.mem_of_getElem? htask)).step (host.withClocks clocks)
    have hown := congrArg (fun finished => outcomeAs id finished.1)
      (task.finish_step (host.withClocks clocks) pool.analyzer)
    have hothers :
        pool.tasks.map (fun other => outcomeAs id (other.1.finish (host.withClocks other.2)
        (task.step (host.withClocks clocks) pool.analyzer).2).1) = pool.prospects host id := by
      refine List.map_congr_left fun other hother => ?_
      have hsound : pool.analyzer.handler.Sound (host.withClocks other.2).engine := h.sound
      exact FileTask.finish_fst_congr hsound hconcurs (h.coherent other hother) id
    have hmapped : (pool.prospects host id)[i]? =
        some (outcomeAs id (task.finish (host.withClocks clocks) pool.analyzer).1) := by
      rw [prospects, List.getElem?_map, htask, Option.map_some]
    obtain ⟨hi, hprospect⟩ := List.getElem?_eq_some_iff.1 hmapped
    dsimp only [prospects]
    rw [List.map_set, hothers, hown, ← hprospect]
    exact List.set_getElem_self hi

/-- **A schedule leaves what all tasks come to**, but for the numbers of the trees: `run`
keeps the `prospects`. -/
theorem Good.prospects_run (h : pool.Good host) (schedule : List Nat) (id : Nat) :
    (pool.run host schedule).prospects host id = pool.prospects host id := by
  induction schedule generalizing pool with
  | nil => rfl
  | cons i schedule ih => exact (ih (h.turn i)).trans (h.prospects_turn i id)

/-- At the `start` of a batch there are no queries but those that are remembered. -/
theorem good_start (hsound : a.handler.Sound host.engine)
    (files : List (Path × (Category → Query.Clock))) : (start files a).Good host := by
  refine ⟨hsound, fun task htask => ?_⟩
  obtain ⟨file, -, rfl⟩ := List.mem_map.1 htask
  trivial

/-- At the `start` of a batch, each task is to come to the outline of its file. -/
theorem prospects_start (host : Host Q) (id : Nat)
    (files : List (Path × (Category → Query.Clock))) (a : Analyzer Q) :
    (start files a).prospects host id =
      files.map fun file => outcomeAs id (a.parseFile (host.withClocks file.2) file.1).1 := by
  unfold start prospects
  rw [List.map_map]
  rfl

/-! ### Schedules that finish -/

/-- `turn` leaves the number of tasks. -/
theorem length_turn (host : Host Q) (pool : Pool Q) (i : Nat) :
    (pool.turn host i).tasks.length = pool.tasks.length := by
  unfold turn
  cases pool.tasks[i]? with
  | none => rfl
  | some task => exact List.length_set

/-- `run` leaves the number of tasks. -/
theorem length_run (host : Host Q) (schedule : List Nat) (pool : Pool Q) :
    (pool.run host schedule).tasks.length = pool.tasks.length := by
  induction schedule generalizing pool with
  | nil => rfl
  | cons i schedule ih => exact (ih _).trans (pool.length_turn host i)

/-- How many steps a task of the pool takes at most. -/
def rankAt (pool : Pool Q) (i : Nat) : Nat :=
  (pool.tasks[i]?.map (·.1.rank)).getD 0

/-- A `turn` brings the task nearer to its end. -/
theorem rankAt_turn_self (host : Host Q) (pool : Pool Q) (i : Nat) :
    (pool.turn host i).rankAt i ≤ pool.rankAt i - 1 := by
  unfold turn
  cases htask : pool.tasks[i]? with
  | none =>
    dsimp only [rankAt]
    rw [htask]
    exact Nat.zero_le _
  | some task =>
    obtain ⟨hi, -⟩ := List.getElem?_eq_some_iff.1 htask
    dsimp only [rankAt]
    rw [List.getElem?_set_self hi, htask]
    exact task.1.rank_step (host.withClocks task.2) pool.analyzer

/-- A `turn` of one task leaves the others where they are. -/
theorem rankAt_turn_of_ne (host : Host Q) (pool : Pool Q) {i j : Nat} (h : i ≠ j) :
    (pool.turn host i).rankAt j = pool.rankAt j := by
  unfold turn
  cases pool.tasks[i]? with
  | none => rfl
  | some task =>
    dsimp only [rankAt]
    rw [List.getElem?_set_ne h]

/-- A file takes `FileTask.turns` steps at most. -/
theorem rankAt_start_le (files : List (Path × (Category → Query.Clock))) (a : Analyzer Q)
    (i : Nat) :
    (start files a).rankAt i ≤ FileTask.turns := by
  unfold rankAt start
  rw [List.getElem?_map]
  cases files[i]? with
  | none => exact Nat.zero_le _
  | some file => exact Nat.le_refl _

/-- Each turn of a task brings it nearer to its end. -/
theorem rankAt_run (host : Host Q) (schedule : List Nat) (pool : Pool Q) (j : Nat) :
    (pool.run host schedule).rankAt j ≤ pool.rankAt j - schedule.count j := by
  induction schedule generalizing pool with
  | nil => exact Nat.le_refl _
  | cons i schedule ih =>
    have hrest : (pool.run host (i :: schedule)).rankAt j ≤
        (pool.turn host i).rankAt j - schedule.count j := ih (pool.turn host i)
    by_cases hij : i = j
    · subst hij
      have hturn := pool.rankAt_turn_self host i
      rw [List.count_cons_self]
      omega
    · rw [pool.rankAt_turn_of_ne host hij] at hrest
      rw [List.count_cons_of_ne hij]
      exact hrest

/-- The tasks have come to these outcomes. -/
def Ends (pool : Pool Q) (outcomes : List (Except AnalyzerError Outline)) : Prop :=
  pool.tasks.map (·.1) = outcomes.map .finished

/-- **A schedule with enough turns for each task finishes all of them** (`Ends`). -/
theorem exists_ends_run (host : Host Q) {schedule : List Nat} {pool : Pool Q}
    (h : ∀ i < pool.tasks.length, pool.rankAt i ≤ schedule.count i) :
    ∃ outcomes, (pool.run host schedule).Ends outcomes := by
  refine ⟨(pool.run host schedule).tasks.map fun task =>
    (task.1.finish host (pool.run host schedule).analyzer).1, ?_⟩
  unfold Ends
  rw [List.map_map]
  refine List.map_congr_left fun task htask => ?_
  obtain ⟨i, htask⟩ := List.mem_iff_getElem?.1 htask
  obtain ⟨hi, -⟩ := List.getElem?_eq_some_iff.1 htask
  have hzero : (pool.run host schedule).rankAt i = 0 := by
    have hrank := rankAt_run host schedule pool i
    have hturns := h i (pool.length_run host schedule ▸ hi)
    omega
  rw [rankAt, htask] at hzero
  exact (FileTask.eq_finished_of_rank_eq_zero hzero host _).1

/-- What the tasks have come to are their `prospects`. -/
theorem Ends.prospects {outcomes : List (Except AnalyzerError Outline)}
    (h : pool.Ends outcomes) (host : Host Q) (id : Nat) :
    pool.prospects host id = outcomes.map (outcomeAs id) := by
  unfold Pool.prospects
  obtain ⟨tasks, analyzer⟩ := pool
  induction tasks generalizing outcomes with
  | nil =>
    obtain rfl := List.map_eq_nil_iff.1 h.symm
    rfl
  | cons task tasks ih =>
    obtain ⟨outcome, outcomes, rfl, houtcome, houtcomes⟩ := List.map_eq_cons_iff.1 h.symm
    have hfinished : task.1 = .finished outcome := houtcome.symm
    rw [List.map_cons, List.map_cons, ih houtcomes.symm, hfinished]
    rfl

/-! ### One task after the other -/

/-- A task that has all turns comes to what it comes to alone. -/
theorem run_replicate (host : Host Q) {k i : Nat} {pool : Pool Q} {task : FileTask Q}
    {clocks : Category → Query.Clock} (htask : pool.tasks[i]? = some (task, clocks))
    (hrank : task.rank ≤ k) :
    pool.run host (List.replicate k i) =
      { tasks := pool.tasks.set i
          (.finished (task.finish (host.withClocks clocks) pool.analyzer).1, clocks)
        analyzer := (task.finish (host.withClocks clocks) pool.analyzer).2 } := by
  induction k generalizing pool task with
  | zero =>
    obtain ⟨hi, hget⟩ := List.getElem?_eq_some_iff.1 htask
    obtain ⟨hfinished, hsame⟩ :=
      FileTask.eq_finished_of_rank_eq_zero (Nat.le_zero.1 hrank) (host.withClocks clocks)
        pool.analyzer
    rw [← hfinished, hsame, ← hget, List.set_getElem_self]
    rfl
  | succ k ih =>
    obtain ⟨hi, -⟩ := List.getElem?_eq_some_iff.1 htask
    have hturn : pool.turn host i =
        { tasks := pool.tasks.set i
            ((task.step (host.withClocks clocks) pool.analyzer).1, clocks)
          analyzer := (task.step (host.withClocks clocks) pool.analyzer).2 } := by
      rw [turn, htask]
    have hnext : (pool.turn host i).tasks[i]? =
        some ((task.step (host.withClocks clocks) pool.analyzer).1, clocks) := by
      rw [hturn]
      exact List.getElem?_set_self hi
    have hstep := task.rank_step (host.withClocks clocks) pool.analyzer
    -- the turn leaves what the task comes to
    have hrest := ih hnext (by omega)
    rw [hturn, List.set_set, task.finish_step] at hrest
    rw [List.replicate_succ, run, List.foldl_cons, hturn]
    exact hrest

/-- The schedule that gives tasks all their turns, one task after the other. -/
def oneByOne (first count : Nat) : List Nat :=
  (List.range' first count).flatMap (List.replicate FileTask.turns)

/-- **A batch is the schedule of one task after the other** (`oneByOne`), whatever tasks
there are before them. -/
theorem run_oneByOne (host : Host Q) (others : List (FileTask Q × (Category → Query.Clock)))
    (files : List (Path × (Category → Query.Clock))) (a : Analyzer Q) :
    (run host (oneByOne others.length files.length) ⟨others ++ files.map opening, a⟩).tasks.map
      (·.1) =
      others.map (·.1) ++ (Analyzer.parseBatch host files a).1.map .finished := by
  induction files generalizing others a with
  | nil =>
    rw [List.map_nil, List.append_nil, Analyzer.parseBatch, List.map_nil, List.append_nil]
    rfl
  | cons file files ih =>
    -- the first task has its turns, and is finished then
    let outcome := a.parseFile (host.withClocks file.2) file.1
    have htask : (Pool.mk (others ++ (file :: files).map opening) a).tasks[others.length]? =
        some (.opening file.1, file.2) := by
      simp [opening]
    have hfirst := run_replicate host (k := FileTask.turns) htask (Nat.le_refl _)
    have hset : (others ++ (file :: files).map opening).set others.length
        (.finished outcome.1, file.2) =
        (others ++ [(.finished outcome.1, file.2)]) ++ files.map opening := by
      simp [List.set_append_right]
    have hrest := ih (others ++ [(.finished outcome.1, file.2)]) outcome.2
    have hschedule : oneByOne others.length (file :: files).length =
        List.replicate FileTask.turns others.length ++
          oneByOne (others ++ [((.finished outcome.1 : FileTask Q), file.2)]).length
            files.length := by
      simp [oneByOne, List.range'_succ]
    rw [hschedule, run, List.foldl_append]
    rw [run, FileTask.finish] at hfirst
    rw [run] at hrest
    rw [hfirst]
    dsimp only
    rw [hset, hrest, Analyzer.parseBatch, List.map_append, List.append_assoc]
    rfl

end Pool

namespace Analyzer

/-- Under a schedule the tasks of a batch come to these outcomes. -/
def BatchEnds (a : Analyzer Q) (host : Host Q) (files : List (Path × (Category → Query.Clock)))
    (schedule : List Nat) (outcomes : List (Except AnalyzerError Outline)) : Prop :=
  ((Pool.start files a).run host schedule).Ends outcomes

/-- An outcome is what the analyzer gives for a file alone, but for the number of the
tree, at all times that the runs cannot tell from those that come with the file. -/
def AsAlone (a : Analyzer Q) (host : Host Q) (file : Path × (Category → Query.Clock))
    (outcome : Except AnalyzerError Outline) : Prop :=
  ∀ clocks, a.handler.SameTimes file.2 clocks →
    (∀ id, outcomeAs id outcome =
      outcomeAs id (a.parseFile (host.withClocks clocks) file.1).1) ∧
    outcome.map (·.toData) = (a.parseFile (host.withClocks clocks) file.1).1.map (·.toData)

/-- **However the turns are taken, a batch comes to what its files come to alone**, but
for the numbers of the trees. -/
theorem BatchEnds.map_outcomeAs {files : List (Path × (Category → Query.Clock))}
    {schedule : List Nat} {outcomes : List (Except AnalyzerError Outline)}
    (h : a.BatchEnds host files schedule outcomes) (hsound : a.handler.Sound host.engine)
    (id : Nat) :
    outcomes.map (outcomeAs id) =
      files.map fun file => outcomeAs id (a.parseFile (host.withClocks file.2) file.1).1 :=
  calc
    outcomes.map (outcomeAs id) = ((Pool.start files a).run host schedule).prospects host id :=
      (Pool.Ends.prospects h host id).symm
    _ = (Pool.start files a).prospects host id :=
      (Pool.good_start hsound files).prospects_run schedule id
    _ = _ := Pool.prospects_start host id files a

/-- A file alone has one outcome at times that its runs cannot tell apart, but for the
number of the tree (`AsAlone`). -/
theorem asAlone_of_outcomeAs (hsound : a.handler.Sound host.engine)
    {file : Path × (Category → Query.Clock)} {outcome : Except AnalyzerError Outline}
    (h : ∀ id, outcomeAs id outcome =
      outcomeAs id (a.parseFile (host.withClocks file.2) file.1).1) :
    a.AsAlone host file outcome := by
  intro clocks htime
  have hconcurs : a.Concurs (host.withClocks file.2).engine (host.withClocks file.2).files a :=
    .refl a
  have hfile : (a.parseFile (host.withClocks clocks) file.1).1 =
      (a.parseFile (host.withClocks file.2) file.1).1.map (Outline.renumber a.nextTree) :=
    hconcurs.parseFile_fst hsound htime file.1
  have hsame (id : Nat) : outcomeAs id outcome =
      outcomeAs id (a.parseFile (host.withClocks clocks) file.1).1 := by
    rw [h, hfile, outcomeAs_outcomeAs]
  refine ⟨hsame, ?_⟩
  rw [← toData_outcomeAs 0, hsame, toData_outcomeAs]

/-- The outcomes of a batch are those of its files alone (`AsAlone`), one by one. -/
theorem BatchEnds.forall₂_asAlone {files : List (Path × (Category → Query.Clock))}
    {schedule : List Nat} {outcomes : List (Except AnalyzerError Outline)}
    (h : a.BatchEnds host files schedule outcomes) (hsound : a.handler.Sound host.engine) :
    List.Forall₂ (a.AsAlone host) files outcomes := by
  have hall := h.map_outcomeAs hsound
  have hlength : files.length = outcomes.length := by
    have hlength := congrArg List.length (hall 0)
    rw [List.length_map, List.length_map] at hlength
    exact hlength.symm
  refine List.forall₂_iff_get.2 ⟨hlength, fun i hi hi' =>
    asAlone_of_outcomeAs hsound fun id => ?_⟩
  have hget := congrArg (·[i]?) (hall id)
  simpa [List.getElem?_map, List.getElem?_eq_getElem hi,
    List.getElem?_eq_getElem hi'] using hget

end Analyzer

/-- **A batch gives for each file what it gives alone, in any order**, whatever the engine
compiles and runs. Every file comes with the clock as it is read for it in the batch.

* Any schedule that gives each task turns enough finishes all tasks.
* A schedule that finishes them has an outcome for each file. It is that of the file alone
  on the analyzer before the batch, but for the number of the tree, at all times that the
  runs cannot tell from those in the batch (`QueryHandler.SameTimes`; without time
  budgets, at all times).
* It depends on the path only, whatever the other files are and however they fail.
* A batch is one of these schedules. -/
theorem batch_order_irrelevant {engine : Engine Q} {s : Session Q} (h : Reachable engine s)
    (files : List (Path × (Category → Query.Clock))) :
    (∀ schedule : List Nat, (∀ i < files.length, FileTask.turns ≤ schedule.count i) →
      ∃ outcomes, s.analyzer.BatchEnds (s.host engine) files schedule outcomes) ∧
    (∀ schedule outcomes, s.analyzer.BatchEnds (s.host engine) files schedule outcomes →
      outcomes.length = files.length ∧
      List.Forall₂ (s.analyzer.AsAlone (s.host engine)) files outcomes ∧
      ∀ files' schedule' outcomes', s.analyzer.BatchEnds (s.host engine) files' schedule'
        outcomes' →
        ∀ (i : Nat) path clocks clocks', files[i]? = some (path, clocks) →
          files'[i]? = some (path, clocks') → s.analyzer.handler.SameTimes clocks clocks' →
          ∀ id, outcomes'[i]?.map (outcomeAs id) = outcomes[i]?.map (outcomeAs id)) ∧
    s.analyzer.BatchEnds (s.host engine) files (Pool.oneByOne 0 files.length)
      (Analyzer.parseBatch (s.host engine) files s.analyzer).1 := by
  refine ⟨fun schedule hturns => Pool.exists_ends_run (s.host engine) ?_,
    fun schedule outcomes hends => ?_, ?_⟩
  · intro i hi
    rw [Pool.start, List.length_map] at hi
    exact Nat.le_trans (Pool.rankAt_start_le files s.analyzer i) (hturns i hi)
  · have halone := hends.forall₂_asAlone h.sound
    refine ⟨halone.length_eq.symm, halone, fun files' schedule' outcomes' hends' => ?_⟩
    intro i path clocks clocks' hfile hfile' htime id
    have hfirst := congrArg (·[i]?) (hends.map_outcomeAs h.sound id)
    have hsecond := congrArg (·[i]?) (hends'.map_outcomeAs h.sound id)
    simp only [List.getElem?_map, hfile, hfile', Option.map_some] at hfirst hsecond
    have hsame : s.analyzer.AsAlone (s.host engine) (path, clocks)
        (s.analyzer.parseFile ((s.host engine).withClocks clocks) path).1 :=
      Analyzer.asAlone_of_outcomeAs h.sound fun _ => rfl
    rw [hfirst, hsecond, (hsame clocks' htime).1]
  · exact Pool.run_oneByOne (s.host engine) [] files s.analyzer

/-- A file is analyzed twice while another one is missing, and all three take turns. There
is no time budget, so it does not matter what the clock shows for the file alone. -/
theorem batch_order_irrelevant_turns :
    let engine :=
      Query.engine (fun _ _ _ => some (.node default [])) fun _ _ => { named := ["module"] }
    let s : Session Query :=
      { analyzer := .default { home := some "/home" }
        files := { entries := [([Text.encode "a.py"], .file [32])] }
        clocks := fun _ _ => 0 }
    let files : List (Path × (Category → Query.Clock)) :=
      [(.ofString "/a.py", fun _ reading => reading), (.ofString "/b.py", fun _ _ => 0),
        (.ofString "/a.py", fun _ reading => 1000 * reading)]
    let schedule := (List.replicate FileTask.turns [2, 1, 0]).flatten
    Reachable engine s ∧ (∀ i < files.length, FileTask.turns ≤ schedule.count i) ∧
      s.files.readBytes (.ofString "/a.py") = .ok [32] ∧
      s.files.readBytes (.ofString "/b.py") = .error .notFound ∧
      ∃ outcomes, s.analyzer.BatchEnds (s.host engine) files schedule outcomes ∧
        outcomes.length = files.length ∧
        outcomes[0]?.map (outcomeAs 7) =
          some (outcomeAs 7 (s.analyzer.parseFile (s.host engine) (.ofString "/a.py")).1) := by
  intro engine s files schedule
  have hreachable : Reachable engine s := .new (Analyzer.isNew_default _)
  have hturns : ∀ i < files.length, FileTask.turns ≤ schedule.count i := by decide
  obtain ⟨hfinishes, houtcomes, -⟩ := batch_order_irrelevant hreachable files
  obtain ⟨outcomes, hends⟩ := hfinishes schedule hturns
  obtain ⟨hlength, halone, -⟩ := houtcomes schedule outcomes hends
  refine ⟨hreachable, hturns, by rfl, by rfl, outcomes, hends, hlength, ?_⟩
  obtain ⟨first, others, hfirst, -, rfl⟩ := List.forall₂_cons_left_iff.1 halone
  have htime : s.analyzer.handler.SameTimes (fun _ reading => reading) s.clocks := fun _ _ =>
    QuerySettings.sameTime_of_untimed rfl _ _
  exact congrArg some ((hfirst s.clocks htime).1 7)

end SourceOutline
