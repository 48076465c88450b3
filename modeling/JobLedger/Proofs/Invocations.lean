import JobLedger.CommandLine.Run
import JobLedger.Proofs.Files.Inspecting
import JobLedger.Proofs.Looking

/-!
# Running a command

Whatever the files are, and whatever is in the tables: a command that does not purge leaves every row
of every ledger as it was. A command that succeeds prints one JSON text, the rendering of what the
ledger answers; one that fails prints nothing, since whatever can fail in a run comes before the
command writes.
-/

namespace JobLedger

open JobLedger.Action Json Text

namespace Invocation

variable {env : Environment} {i : Invocation} {t : FileTree} {config : LedgerConfig}

/-- An invocation runs under a configuration, whose log filter is one. -/
structure RunsUnder (env : Environment) (i : Invocation) (t : FileTree) (config : LedgerConfig) :
    Prop where
  configuration : i.configuration env t = .ok config
  filter : checkFilter env config.logging = .ok ()

/-- A session that an invocation opens, together with the files at that time. -/
def Opens (env : Environment) (i : Invocation) (t : FileTree) (l : OpenLedger) : Prop :=
  ∃ config, i.RunsUnder env t config ∧ (FileTree.openStore config.store t).answer = .ok l.session ∧
    (FileTree.openStore config.store t).state = l.files

/-- An invocation that has a configuration goes on with it. -/
theorem configuration_ok (h : i.configuration env t = .ok config) (text : String) :
    (Console.quietly (look fun t => (i.configuration env t).mapError .config :
      Action RunError FileTree LedgerConfig) ⟨t, text⟩).answer = .ok config := by
  change (i.configuration env t).mapError RunError.config = _
  rw [h]
  rfl

/-- Without a configuration, and without a log filter, nothing happens. -/
theorem run_of_not_runsUnder (h : ∀ config, ¬ i.RunsUnder env t config) (text : String) :
    ∃ e, (i.run env ⟨t, text⟩).answer = .error e ∧ (i.run env ⟨t, text⟩).state = ⟨t, text⟩ := by
  rw [run]
  cases hconfig : i.configuration env t with
  | error e =>
    have hlook : (Console.quietly (look fun t => (i.configuration env t).mapError .config :
        Action RunError FileTree LedgerConfig) ⟨t, text⟩).answer = .error (.config e) := by
      change (i.configuration env t).mapError RunError.config = _
      rw [hconfig]
      rfl
    exact ⟨.config e, bind_error hlook _⟩
  | ok config =>
    have hlook := configuration_ok hconfig text
    rw [(bind_ok hlook _).1, (bind_ok hlook _).2]
    cases hfilter : checkFilter env config.logging with
    | error e => exact ⟨e, rfl, rfl⟩
    | ok u => exact absurd ⟨hconfig, hfilter⟩ (h config)

/-- Under a configuration the ledger is opened, and the command is performed in its session. -/
theorem run_of_runsUnder (h : i.RunsUnder env t config) (text : String) :
    (∃ e, (FileTree.openStore config.store t).answer = .error e ∧
        (i.run env ⟨t, text⟩).answer = .error (.opening config.store.path e) ∧
        (i.run env ⟨t, text⟩).state = ⟨(FileTree.openStore config.store t).state, text⟩) ∨
      ∃ l : OpenLedger, (FileTree.openStore config.store t).answer = .ok l.session ∧
        (FileTree.openStore config.store t).state = l.files ∧
        (i.run env ⟨t, text⟩).answer =
          (i.command.perform ⟨l, text⟩).answer.mapError RunError.ledger ∧
        (i.run env ⟨t, text⟩).state =
          (onSession l.session i.command.perform ⟨l.files, text⟩).state := by
  have hlook := configuration_ok h.configuration text
  have hfilter : (ofExcept (checkFilter env config.logging) ⟨t, text⟩ :
      Outcome RunError (Console FileTree) Unit).answer = .ok () := h.filter
  have hstays : (ofExcept (checkFilter env config.logging) ⟨t, text⟩ :
      Outcome RunError (Console FileTree) Unit).state = ⟨t, text⟩ := rfl
  have hlooked : (Console.quietly (look fun t => (i.configuration env t).mapError .config :
      Action RunError FileTree LedgerConfig) ⟨t, text⟩).state = ⟨t, text⟩ := rfl
  rw [run, (bind_ok hlook _).1, (bind_ok hlook _).2, hlooked, (bind_ok hfilter _).1,
    (bind_ok hfilter _).2, hstays]
  cases hopened : (FileTree.openStore config.store t).answer with
  | error e =>
    have hfails : (Console.quietly (mapError (RunError.opening config.store.path)
        (FileTree.openStore config.store)) ⟨t, text⟩).answer =
          .error (.opening config.store.path e) := by
      change ((FileTree.openStore config.store t).answer).mapError _ = _
      rw [hopened]
      rfl
    exact .inl ⟨e, rfl, bind_error hfails _⟩
  | ok session =>
    have hanswers : (Console.quietly (mapError (RunError.opening config.store.path)
        (FileTree.openStore config.store)) ⟨t, text⟩).answer = .ok session := by
      change ((FileTree.openStore config.store t).answer).mapError _ = _
      rw [hopened]
      rfl
    refine .inr ⟨⟨(FileTree.openStore config.store t).state, session⟩, rfl, rfl, ?_⟩
    rw [(bind_ok hanswers _).1, (bind_ok hanswers _).2]
    exact ⟨rfl, rfl⟩

/-- A run that fails has written nothing: the configuration, the log filter and the ledger are seen to
before the command, and a command writes last. -/
theorem atomic_run (env : Environment) (i : Invocation) :
    Atomic Console.output (i.run env) := by
  refine .bind_of_spares (Console.spares_quietly _) fun config =>
    .bind_of_spares (fun _ => .ofExcept _) fun _ =>
      .bind_of_spares (Console.spares_quietly _) fun session =>
        .bind_of_spares (fun _ => .report _) fun _ => ?_
  have hsession : Atomic Console.output (onSession session i.command.perform) :=
    .within (fun _ => rfl) (fun _ _ => rfl) i.command.atomic_perform
  exact hsession.mapError

/-- A command that does not purge leaves the rows of all tables, in whatever session it is
performed. -/
theorem keepsTables_onSession {first : FileTree} {place : Place} {l : OpenLedger} {c : Command}
    {text : String} (hc : ¬ c.Purges) (hapart : l.session.IsApart place)
    (hlog : ∀ other mayWrite readers, l.session = .ledger (.file other) mayWrite readers →
      (l.files.ledgerAt (.file other)).attached = false → l.files.HasLog other)
    (h : FileTree.KeepsTables first place l.files) :
    FileTree.KeepsTables first place
      (onSession l.session c.perform ⟨l.files, text⟩).state.inner := by
  have hqueries {P : OpenLedger → Prop} (hturn : ∀ l : OpenLedger, P l → P l.turn) :
      Keeps (fun console : Console OpenLedger => P console.inner) c.perform :=
    Command.keeps_perform (fun call hquery => Database.keeps_perform hturn call hquery) hc
  let after := (c.perform ⟨l, text⟩).state.inner
  have htables : FileTree.KeepsTables first place after.files :=
    (hqueries OpenLedger.keepsTables_turn ⟨l, text⟩ ⟨hapart, h⟩).2
  change FileTree.KeepsTables first place (if l.files.isAttached l.session
    then after.files else after.files.detach l.session)
  split
  · exact htables
  · next hidle =>
    -- A ledger that nobody uses any more is closed, which puts its log into the file.
    cases hsession : l.session with
    | own db => exact htables
    | fixed db => exact htables
    | ledger home mayWrite readers =>
      refine htables.detach (hapart home mayWrite readers hsession) (fun other hother => ?_)
        mayWrite readers
      subst hother
      rw [hsession, FileTree.isAttached, Bool.not_eq_true] at hidle
      exact (hqueries OpenLedger.hasLog_turn ⟨l, text⟩
        ⟨⟨mayWrite, readers, hsession⟩, hlog other mayWrite readers hsession hidle⟩).2.untorn

/-- A ledger is not in the place of a file beside the one that an invocation works on. -/
def IsApart (env : Environment) (i : Invocation) (t : FileTree) (home : Home) : Prop :=
  ∀ config place, i.configuration env t = .ok config → home = .file place →
    config.store.IsApart place

/-- Running a command that does not purge leaves the rows of all tables. -/
theorem keepsTables_run {place : Place} (hc : ¬ i.command.Purges) (text : String)
    (hapart : i.IsApart env t (.file place)) :
    FileTree.KeepsTables t place (i.run env ⟨t, text⟩).state.inner := by
  by_cases hruns : ∃ config, i.RunsUnder env t config
  · obtain ⟨config, hconfig⟩ := hruns
    have hplace := hapart config place hconfig.configuration rfl
    have hopening := FileTree.keepsTables_openStore hplace t (.refl t place)
    rcases run_of_runsUnder hconfig text with ⟨e, -, -, hstate⟩ | ⟨l, hopened, hfiles, -, hstate⟩
    · rw [hstate]
      exact hopening
    · rw [hstate]
      rw [hfiles] at hopening
      refine keepsTables_onSession hc (FileTree.isApart_of_openStore hopened hplace)
        (fun other mayWrite readers hsession hidle => ?_) hopening
      rw [hsession] at hopened
      rw [← hfiles] at hidle ⊢
      exact FileTree.hasLog_openStore hopened hidle
  · obtain ⟨e, -, hstate⟩ := run_of_not_runsUnder (not_exists.mp hruns) text
    rw [hstate]
    exact .refl t place

/-- What is printed is the rendering of the answers of the session that was opened. -/
theorem renders_run {text : String} (h : (i.run env ⟨t, text⟩).answer = .ok ()) :
    ∃ l value, i.Opens env t l ∧ i.command.Renders l value ∧
      (i.run env ⟨t, text⟩).state.output = text ++ (value.pretty ++ "\n") := by
  by_cases hruns : ∃ config, i.RunsUnder env t config
  · obtain ⟨config, hconfig⟩ := hruns
    rcases run_of_runsUnder hconfig text with
      ⟨e, -, hanswer, -⟩ | ⟨l, hopened, hfiles, hanswer, hstate⟩
    · exact nomatch hanswer.symm.trans h
    · rw [hanswer] at h
      obtain ⟨value, hrenders, hwritten⟩ := OpenLedger.renders_perform (eq_ok_of_mapError h)
      refine ⟨l, value, ⟨config, hconfig, hopened, hfiles⟩, hrenders, ?_⟩
      rw [hstate]
      exact hwritten
  · obtain ⟨e, hanswer, -⟩ := run_of_not_runsUnder (not_exists.mp hruns) text
    exact nomatch hanswer.symm.trans h

/-- An invocation that fails although it has opened a session was refused by the ledger. -/
theorem refused_of_run {text : String} {e : RunError}
    (h : (i.run env ⟨t, text⟩).answer = .error e) {l : OpenLedger} (hl : i.Opens env t l) :
    ∃ e, (i.command.perform ⟨l, text⟩).answer = .error e := by
  obtain ⟨config, hconfig, hopened, hfiles⟩ := hl
  rcases run_of_runsUnder hconfig text with ⟨e', hnone, -⟩ | ⟨now, hnow, hsame, hanswer, -⟩
  · exact nomatch hnone.symm.trans hopened
  · have hl : now = l := by
      obtain ⟨files, session⟩ := l
      obtain ⟨files', session'⟩ := now
      obtain rfl : files' = files := hsame.symm.trans hfiles
      obtain rfl : session' = session := Except.ok.inj (hnow.symm.trans hopened)
      rfl
    rw [hanswer, hl] at h
    cases hvalue : (i.command.perform ⟨l, text⟩).answer with
    | error e => exact ⟨e, rfl⟩
    | ok u =>
      rw [hvalue] at h
      exact nomatch h

end Invocation

/-- How an invocation deals with what is there, and with what it is asked for: it leaves the rows of
all ledgers unless it purges; it prints one JSON text, the rendering of what the ledger answers, when
it succeeds, and nothing when it fails, which it does only if the ledger was not opened or refused
the command. -/
structure Invocation.Accounts (env : Environment) (i : Invocation) (t : FileTree) (ending : Ending)
    (after : FileTree) : Prop where
  tables : ¬ i.command.Purges → ∀ home, i.IsApart env t.onDisk home →
    (t.ledgerAt home).database.SameTables (after.ledgerAt home).database
  printed : ending.exitCode = 0 → ∃ l value, i.Opens env t.onDisk l ∧ i.command.Renders l value ∧
    ending.output = value.pretty ++ "\n" ∧ read? (octets ending.output.toList) = some value
  silent : ending.exitCode ≠ 0 → ending.output = "" ∧
    ∀ l, i.Opens env t.onDisk l → ∃ e, (i.command.perform ⟨l, ""⟩).answer = .error e

/-- Every run of a command accounts for what it does, whatever the files are. -/
theorem accounts_everyRun {arguments : List String} {i : Invocation}
    (h : Request.ofArguments? arguments = some (.run i)) (env : Environment) (t : FileTree) :
    i.Accounts env t (answerArguments env arguments t).1 (answerArguments env arguments t).2 := by
  rw [answerArguments, h]
  dsimp only
  refine ⟨fun hc home hapart => ?_, fun hcode => ?_, fun hcode => ?_⟩
  · cases home with
    | memory name => exact .refl _
    | file place =>
      have hbefore : t.onDisk.ledgerAt (.file place) = t.ledgerAt (.file place) :=
        FileTree.ledgerAt_of_find? rfl
      have htables := Invocation.keepsTables_run hc "" hapart
      rw [← hbefore]
      exact htables.of_find? (FileTree.find?_memory _ t.memory place)
  · cases hanswer : (i.run env ⟨t.onDisk, ""⟩).answer with
    | error e =>
      rw [hanswer] at hcode
      have hone : (1 : UInt32) ≠ 0 := by decide
      exact absurd hcode hone
    | ok u =>
      obtain ⟨l, value, hopens, hrenders, htext⟩ := Invocation.renders_run hanswer
      rw [String.empty_append] at htext
      refine ⟨l, value, hopens, hrenders, htext, ?_⟩
      rw [htext]
      exact read?_octets_pretty hrenders.plain
  · cases hanswer : (i.run env ⟨t.onDisk, ""⟩).answer with
    | error e =>
      have hsilent : (i.run env ⟨t.onDisk, ""⟩).state.output = "" :=
        Invocation.atomic_run env i ⟨t.onDisk, ""⟩ e hanswer
      exact ⟨hsilent, fun l hl => Invocation.refused_of_run hanswer hl⟩
    | ok u =>
      rw [hanswer] at hcode
      exact absurd rfl hcode

/-- A file with a ledger of some version, in which there is an instance. -/
def oneInstance (version : Int) : FileTree :=
  FileTree.start.put ["work", "ledger.db"] (.ledger { LedgerFile.blank with
    database := { Database.blank with
      versions := some [.int version]
      instances := some ⟨[(1, ⟨.text "load", .text "nightly", .null⟩)], 1⟩ } })

/-- The ledger is not beside the database that it is itself. -/
theorem isApart_oneInstance (t : FileTree) :
    Invocation.IsApart ⟨none, none⟩ ⟨none, some "ledger.db", .instances none none 0 50⟩ t
      (.file ["work", "ledger.db"]) := by
  intro config place hconfig hplace
  obtain rfl := Home.file.inj hplace
  have hpath : config.store.path = "ledger.db" := by
    have hvalid : ((LedgerConfig.ofPath "ledger.db").validate.toOption.map fun config =>
        config.store.path) = some "ledger.db" := by decide +kernel
    have hread : (LedgerConfig.ofPath "ledger.db").validate = .ok config := hconfig
    rw [hread] at hvalid
    exact Option.some.inj hvalid
  exact StoreSettings.isApart_of_leadsTo (a := { name := "ledger.db" }) (by rw [hpath]; decide +kernel)
    ⟨"ledger.db", by decide +kernel, by decide +kernel⟩

/-- The instance is listed if the ledger is of the version of the program. With another version
nothing is printed. It is left as it was both times. -/
theorem accounts_oneInstance :
    let arguments := ["--db", "ledger.db", "instances"]
    let home := Home.file ["work", "ledger.db"]
    let (listed, after) := answerArguments ⟨none, none⟩ arguments (oneInstance 1)
    let (refused, left) := answerArguments ⟨none, none⟩ arguments (oneInstance 2)
    Request.ofArguments? arguments =
        some (.run ⟨none, some "ledger.db", .instances none none 0 50⟩) ∧
      listed.output =
        "[\n  \x7b\n    \"id\": 1,\n    \"name\": \"load\"\n  \x7d\n]\n" ∧
      (∃ value, listed.output = value.pretty ++ "\n" ∧
        read? (octets listed.output.toList) = some value) ∧
      ((oneInstance 1).ledgerAt home).database.SameTables (after.ledgerAt home).database ∧
      refused.output = "" ∧
      ((oneInstance 2).ledgerAt home).database.SameTables (left.ledgerAt home).database := by
  intro arguments home
  have hrequest : Request.ofArguments? arguments =
      some (.run ⟨none, some "ledger.db", .instances none none 0 50⟩) := by decide +kernel
  have hlisted := accounts_everyRun hrequest ⟨none, none⟩ (oneInstance 1)
  have hrefused := accounts_everyRun hrequest ⟨none, none⟩ (oneInstance 2)
  obtain ⟨-, value, -, -, hprinted⟩ := hlisted.printed (by decide +kernel)
  exact ⟨hrequest, by decide +kernel, ⟨value, hprinted⟩,
    hlisted.tables nofun home (isApart_oneInstance _), (hrefused.silent (by decide +kernel)).1,
    hrefused.tables nofun home (isApart_oneInstance _)⟩

end JobLedger
