import ComputerSystem.FilePrograms

/-!
# The shell

The shell reads lines and has the kernel execute them, and does not end before it reads `exit`.
Reads may wait for ever, and what becomes of a command is up to the program it starts; so the log of
every run, ended or not, is compared with the lines in it.
-/

namespace ComputerSystem

open CString Dialogue UserProcess

/-! ## The program -/

/-- The loop of `ece391shell`, for at most so many rounds. -/
def shell_loop : Nat → List UInt8 → Dialogue UserCall Reply Int
  | 0, _ => spent
  | rounds + 1, buf => do
      ece391_fdputs 1 (bytes "391OS> ")
      let got ← request (.descriptor (.read 0 false 1023))
      let buf := overwrite buf 0 got.bytes
      let cnt := got.result
      if cnt = -1 then do
        ece391_fdputs 1 (bytes "read from keyboard failed\n")
        pure 3
      else
        let cnt := if cnt > 0 ∧ buf.getD (cnt - 1).toNat 0 = NEWLINE then cnt - 1 else cnt
        let buf := buf.set cnt.toNat 0
        if ece391_strcmp buf (bytes "exit") = 0 then pure 0
        else if buf.getD 0 0 = 0 then shell_loop rounds buf
        else do
          let executed ← request (.execute buf)
          let rval := executed.result
          if rval = -1 then ece391_fdputs 1 (bytes "no such command\n")
          else if rval = 256 then ece391_fdputs 1 (bytes "program terminated by exception\n")
          else if rval ≠ 0 then ece391_fdputs 1 (bytes "program terminated abnormally\n")
          shell_loop rounds buf

/-- `main` of `ece391shell`. -/
def shell_main (rounds : Nat) (buf : List UInt8) : Dialogue UserCall Reply Int := do
  ece391_fdputs 1 (bytes "Starting 391 Shell\n")
  shell_loop rounds buf

/-! ## What a log tells -/

/-- The command in a line, less its newline and what is behind a NUL. -/
def command_line (line : List UInt8) : List UInt8 :=
  text (if line.getLast? = some NEWLINE then line.dropLast else line)

/-- The lines that were read. -/
def heard : List (UserCall × Reply) → List (List UInt8)
  | [] => []
  | (.descriptor (.read _ _ _), reply) :: log => command_line reply.bytes :: heard log
  | _ :: log => heard log

/-- The commands that were executed. -/
def executed : List (UserCall × Reply) → List (List UInt8)
  | [] => []
  | (.execute command, _) :: log => text command :: executed log
  | _ :: log => executed log

/-- What the shell says about a command that ended. -/
def verdict (rval : Int) : List UInt8 :=
  if rval = -1 then bytes "no such command\n"
  else if rval = 256 then bytes "program terminated by exception\n"
  else if rval ≠ 0 then bytes "program terminated abnormally\n"
  else []

/-- A prompt for every line that was read and a verdict on every command that ended. -/
def spoken : List (UserCall × Reply) → List UInt8
  | [] => []
  | (.descriptor (.read _ _ _), _) :: log => bytes "391OS> " ++ spoken log
  | (.execute _, reply) :: log => verdict reply.result ++ spoken log
  | _ :: log => spoken log

/-- The command that has not ended yet. -/
def pending_command {Result σ : Type} : Ending UserCall Result σ → List (List UInt8)
  | .waiting (.execute command) => [text command]
  | _ => []

/-- The prompt behind which no line has come yet. -/
def pending_prompt {Result σ : Type} : Ending UserCall Result σ → List UInt8
  | .waiting (.descriptor (.read _ _ _)) => bytes "391OS> "
  | _ => []

/-- The log of a run fits the lines in it. -/
structure Session (log : List (UserCall × Reply)) (ending : Ending UserCall Int System) :
    Prop where
  /-- The lines in front of `exit` are executed, but for empty ones. -/
  commands : executed log ++ pending_command ending =
    ((heard log).takeWhile (· ≠ bytes "exit")).filter (· ≠ [])
  /-- `exit` ends the session, and nothing else does. -/
  exit : (∃ last, ending = .finished 0 last) ↔ bytes "exit" ∈ heard log
  /-- It ends in no other way. -/
  result : ∀ result last, ending = .finished result last → result = 0
  /-- Nothing is said but prompts and verdicts. -/
  said : displayed log = spoken log ++ pending_prompt ending

/-! ## Rounds -/

/-- A text that was put on the terminal. -/
def wrote (s : List UInt8) : UserCall × Reply :=
  (.descriptor (.write 1 s (ece391_strlen s)), ⟨ece391_strlen s, []⟩)

/-- A line that was read. -/
def entered (line : List UInt8) : UserCall × Reply :=
  (.descriptor (.read 0 false 1023), ⟨line.length, line⟩)

/-- A command that ended. -/
def ran (command : List UInt8) (reply : Reply) : UserCall × Reply := (.execute command, reply)

section logs

variable (s line command : List UInt8) (reply : Reply) (log : List (UserCall × Reply))

@[simp]
theorem heard_wrote : heard (wrote s :: log) = heard log := rfl

@[simp]
theorem heard_entered : heard (entered line :: log) = command_line line :: heard log := rfl

@[simp]
theorem heard_ran : heard (ran command reply :: log) = heard log := rfl

@[simp]
theorem executed_wrote : executed (wrote s :: log) = executed log := rfl

@[simp]
theorem executed_entered : executed (entered line :: log) = executed log := rfl

@[simp]
theorem executed_ran : executed (ran command reply :: log) = text command :: executed log := rfl

@[simp]
theorem spoken_wrote : spoken (wrote s :: log) = spoken log := rfl

@[simp]
theorem spoken_entered : spoken (entered line :: log) = bytes "391OS> " ++ spoken log := rfl

@[simp]
theorem spoken_ran : spoken (ran command reply :: log) = verdict reply.result ++ spoken log := rfl

@[simp]
theorem displayed_wrote : displayed (wrote s :: log) = text s ++ displayed log := by
  rw [wrote, displayed, if_pos rfl, Int.toNat_natCast, leading_strlen]

@[simp]
theorem displayed_entered : displayed (entered line :: log) = displayed log := rfl

@[simp]
theorem displayed_ran : displayed (ran command reply :: log) = displayed log := rfl

end logs

theorem text_prompt : text (bytes "391OS> ") = bytes "391OS> " := by decide

theorem exit_ne_nil : bytes "exit" ≠ [] := by decide

namespace Session

variable {log : List (UserCall × Reply)} {ending : Ending UserCall Int System}

theorem spent : Session [] .spent where
  commands := rfl
  exit := by simp [heard]
  result _ _ ended := nomatch ended
  said := rfl

theorem prompted (fd : Int) (buf_null : Bool) (nbytes : Int) :
    Session [wrote (bytes "391OS> ")] (.waiting (.descriptor (.read fd buf_null nbytes))) where
  commands := rfl
  exit := by simp [heard]
  result _ _ ended := nomatch ended
  said := by
    rw [displayed_wrote, text_prompt]
    rfl

theorem exited {line : List UInt8} (exit : command_line line = bytes "exit") (last : System) :
    Session [wrote (bytes "391OS> "), entered line] (.finished 0 last) where
  commands := by simp [executed, heard, exit, pending_command]
  exit := by simp [heard, exit]
  result _ _ ended := by
    cases ended
    rfl
  said := by simp [displayed, spoken, text_prompt, pending_prompt]

theorem skipped (session : Session log ending) {line : List UInt8}
    (empty : command_line line = []) :
    Session (wrote (bytes "391OS> ") :: entered line :: log) ending where
  commands := by simp [session.commands, empty, exit_ne_nil.symm]
  exit := by simp [session.exit, empty, exit_ne_nil]
  result := session.result
  said := by simp [session.said, text_prompt]

theorem waits {line command : List UInt8} (same : text command = command_line line)
    (not_exit : command_line line ≠ bytes "exit") (not_empty : command_line line ≠ []) :
    Session [wrote (bytes "391OS> "), entered line] (.waiting (.execute command)) where
  commands := by simp [executed, heard, pending_command, same, not_exit, not_empty]
  exit := by simp [heard, not_exit.symm]
  result _ _ ended := nomatch ended
  said := by simp [displayed, spoken, text_prompt, pending_prompt]

theorem resumed (session : Session log ending) {line command : List UInt8}
    (same : text command = command_line line) (not_exit : command_line line ≠ bytes "exit")
    (not_empty : command_line line ≠ []) (reply : Reply) {told : List (UserCall × Reply)}
    (tells : told = [] ∧ verdict reply.result = [] ∨ told = [wrote (verdict reply.result)]) :
    Session (wrote (bytes "391OS> ") :: entered line :: ran command reply :: (told ++ log))
      ending := by
  have whole : text (verdict reply.result) = verdict reply.result := by
    rw [verdict]
    split_ifs <;> decide
  obtain ⟨rfl, silent⟩ | rfl := tells
  · refine ⟨?_, ?_, session.result, ?_⟩
    · simp [session.commands, same, not_exit, not_empty]
    · simp [session.exit, not_exit.symm]
    · simp [session.said, text_prompt, silent]
  · refine ⟨?_, ?_, session.result, ?_⟩
    · simp [session.commands, same, not_exit, not_empty]
    · simp [session.exit, not_exit.symm]
    · simp [session.said, text_prompt, whole]

end Session

/-! ## Runs -/

theorem text_command (line behind : List UInt8) :
    let buf := line ++ behind
    let cnt : Int := line.length
    let cnt := if cnt > 0 ∧ buf.getD (cnt - 1).toNat 0 = NEWLINE then cnt - 1 else cnt
    text (buf.set cnt.toNat 0) = command_line line := by
  intro buf
  rw [command_line]
  induction line using List.reverseRecOn with
  | nil => exact text_set_nul [] behind
  | append_singleton line c _ =>
      have length : (line ++ [c]).length = line.length + 1 := List.length_append
      have buf_eq : buf = line ++ c :: behind := List.append_assoc ..
      have last : buf.getD line.length 0 = c := buf_eq ▸ getD_behind line c behind
      have index : (((line ++ [c]).length : Int) - 1).toNat = line.length := by omega
      have positive : ((line ++ [c]).length : Int) > 0 := by omega
      simp only [index, last, positive, true_and, List.getLast?_append_cons,
        List.getLast?_singleton, Option.some.injEq, List.dropLast_concat]
      split_ifs with newline
      · rw [index, buf_eq]
        exact text_set_nul line (c :: behind)
      · exact text_set_nul (line ++ [c]) behind

section runs

variable {process : UserProcess} {fdt : Fin 8 → Fd} {Change : UserCall → System → System → Prop}

theorem ensures_fdputs
    (allowed : ∀ call system changed, Change call system changed →
      process.Allows call system changed)
    (stdout : fdt 1 = Fd.stdout) (s : List UInt8) {next : Unit → Dialogue UserCall Reply Int}
    {Post : List (UserCall × Reply) → Ending UserCall Int System → Prop} {system : System}
    (owned : system.Owned process.esp fdt process.argument)
    (behind : ∀ last : System, last.Owned process.esp fdt process.argument →
      (next ()).Ensures (System.reply process.image process.esp process.others) Change
        (fun log => Post (wrote s :: log)) last) :
    (ece391_fdputs 1 s >>= next).Ensures (System.reply process.image process.esp process.others)
      Change Post system := by
  refine Ensures.ask fun changed change => ?_
  obtain ⟨⟨fdt_eq, argument_eq⟩, holds⟩ := allowed _ system changed change
  obtain ⟨last, answer, owned, -⟩ := reply_descriptor
    (answers_write_stdout stdout s (ece391_strlen s))
    ⟨fdt_eq.trans owned.1, argument_eq.trans owned.2⟩ holds
  exact ⟨_, last, answer, behind last owned⟩

/-- A line that was entered is handed out whole. -/
theorem terminal_read_cases (task : Task) (nbytes : Int) :
    terminal_read task false nbytes = none ∨
      ∃ answer, terminal_read task false nbytes = some answer ∧
        answer.result = answer.bytes.length ∧ answer.task.fdt = task.fdt := by
  let console := task.devices.tty.console
  let term := console.term console.cur_term_idx
  by_cases entered : term.term_enter_flag = false
  · have waits : console.terminal_read false = none := by
      rw [Console.terminal_read, if_neg Bool.false_ne_true]
      exact if_pos entered
    left
    rw [terminal_read, waits, Option.map_none]
  · have read : ∃ after, console.terminal_read false =
        some ((term.term_buf_idx : Int), (List.range term.term_buf_idx).map term.loadBuf,
          after) := by
      rw [Console.terminal_read, if_neg Bool.false_ne_true]
      exact ⟨_, if_neg entered⟩
    obtain ⟨after, read⟩ := read
    right
    rw [terminal_read, read, Option.map_some]
    refine ⟨_, rfl, ?_, rfl⟩
    rw [List.length_map, List.length_range]

/-- A read on the keyboard gives a line, when there is one. -/
theorem reply_read_stdin (stdin : fdt 0 = Fd.stdin) {system : System}
    (owned : system.Owned process.esp fdt process.argument) (nbytes : Int) :
    let answer := system.reply process.image process.esp process.others
      (.descriptor (.read 0 false nbytes))
    answer = none ∨ ∃ (line : List UInt8) (last : System),
      answer = some (⟨line.length, line⟩, last) ∧
        last.Owned process.esp fdt process.argument := by
  intro answer
  obtain ⟨fdt_eq, argument_eq⟩ := owned
  subst fdt_eq
  let address := get_cur_pcb process.esp
  have in_use : (system.kernel.task address).Open 0 := by
    rw [Task.Open, Kernel.task_fdt, stdin]
    exact one_ne_zero
  have table : ((system.kernel.task address).fdt 0).file_operation_table_ptr =
      some .terminal_func_in := by
    rw [Kernel.task_fdt, stdin]
    rfl
  have called : (system.kernel.task address).call process.image (.read 0 false nbytes) =
      terminal_read (system.kernel.task address) false nbytes :=
    read_open process.image false nbytes in_use table
  simp only [answer, System.reply]
  obtain waits | ⟨got, read, result_eq, kept⟩ :=
    terminal_read_cases (system.kernel.task address) nbytes
  · left
    rw [called, waits, Option.map_none]
  · right
    let kernel := system.kernel.setTask address got.task
    refine ⟨got.bytes, { system with kernel }, ?_, ?_, ?_⟩
    · rw [called, read, Option.map_some, result_eq]
    · simp only [kernel, address, Kernel.setTask, Kernel.modifyPcb, Function.update_self, kept,
        Kernel.task_fdt]
    · simp only [kernel, address, Kernel.setTask, Kernel.modifyPcb, Function.update_self,
        argument_eq]

/-- What is promised of the log of so many rounds. -/
def SessionOf (rounds : Nat) (log : List (UserCall × Reply)) (ending : Ending UserCall Int System) :
    Prop :=
  Session log ending ∧ (ending = .spent → (heard log).length = rounds)

theorem SessionOf.skipped {rounds : Nat} {log : List (UserCall × Reply)}
    {ending : Ending UserCall Int System} (session : SessionOf rounds log ending)
    {line : List UInt8} (empty : command_line line = []) :
    SessionOf (rounds + 1) (wrote (bytes "391OS> ") :: entered line :: log) ending := by
  refine ⟨session.1.skipped empty, fun spent => ?_⟩
  rw [heard_wrote, heard_entered, List.length_cons, session.2 spent]

theorem shell_loop_resumes
    (allowed : ∀ call system changed, Change call system changed →
      process.Allows call system changed)
    (stdout : fdt 1 = Fd.stdout) {line command : List UInt8}
    (same : text command = command_line line) (not_exit : command_line line ≠ bytes "exit")
    (not_empty : command_line line ≠ []) (reply : Reply) {rounds : Nat}
    (loop : ∀ last : System, last.Owned process.esp fdt process.argument →
      (shell_loop rounds command).Ensures
        (System.reply process.image process.esp process.others) Change (SessionOf rounds) last)
    {system : System} (owned : system.Owned process.esp fdt process.argument) :
    Dialogue.Ensures (System.reply process.image process.esp process.others) Change (do
        let rval := reply.result
        if rval = -1 then ece391_fdputs 1 (bytes "no such command\n")
        else if rval = 256 then ece391_fdputs 1 (bytes "program terminated by exception\n")
        else if rval ≠ 0 then ece391_fdputs 1 (bytes "program terminated abnormally\n")
        shell_loop rounds command)
      (fun log => SessionOf (rounds + 1)
        (wrote (bytes "391OS> ") :: entered line :: ran command reply :: log)) system := by
  have resumed : ∀ told log ending,
      told = [] ∧ verdict reply.result = [] ∨ told = [wrote (verdict reply.result)] →
      SessionOf rounds log ending →
      SessionOf (rounds + 1)
        (wrote (bytes "391OS> ") :: entered line :: ran command reply :: (told ++ log)) ending := by
    rintro told log ending tells ⟨session, length⟩
    refine ⟨session.resumed same not_exit not_empty reply tells, fun spent => ?_⟩
    obtain ⟨rfl, -⟩ | rfl := tells
    · simp [length spent]
    · simp [length spent]
  have silent : verdict reply.result = [] →
      (shell_loop rounds command).Ensures
        (System.reply process.image process.esp process.others) Change
        (fun log => SessionOf (rounds + 1)
          (wrote (bytes "391OS> ") :: entered line :: ran command reply :: log)) system :=
    fun nothing => (loop system owned).mono fun log ending kept =>
      resumed [] log ending (Or.inl ⟨rfl, nothing⟩) kept
  have told : ∀ message, verdict reply.result = message →
      (ece391_fdputs 1 message >>= fun _ => shell_loop rounds command).Ensures
        (System.reply process.image process.esp process.others) Change
        (fun log => SessionOf (rounds + 1)
          (wrote (bytes "391OS> ") :: entered line :: ran command reply :: log)) system := by
    rintro message rfl
    exact ensures_fdputs allowed stdout _ owned fun last owned =>
      (loop last owned).mono fun log ending kept =>
        resumed [wrote (verdict reply.result)] log ending (Or.inr rfl) kept
  by_cases missing : reply.result = -1
  · simp only [if_pos missing]
    exact told _ (if_pos missing)
  by_cases exception : reply.result = 256
  · simp only [if_neg missing, if_pos exception]
    exact told _ ((if_neg missing).trans (if_pos exception))
  by_cases abnormal : reply.result ≠ 0
  · simp only [if_neg missing, if_neg exception, if_pos abnormal]
    exact told _ ((if_neg missing).trans ((if_neg exception).trans (if_pos abnormal)))
  · simp only [if_neg missing, if_neg exception, if_neg abnormal]
    exact silent ((if_neg missing).trans ((if_neg exception).trans (if_neg abnormal)))

/-- The shell goes by the lines it reads. -/
theorem shell_loop_session
    (allowed : ∀ call system changed, Change call system changed →
      process.Allows call system changed)
    (keeps : ∀ system command reply last,
      process.others system (.execute command) = some (reply, last) →
      system.Elsewhere process.esp last)
    (stdin : fdt 0 = Fd.stdin) (stdout : fdt 1 = Fd.stdout) (rounds : Nat) (buf : List UInt8)
    {system : System} (owned : system.Owned process.esp fdt process.argument) :
    (shell_loop rounds buf).Ensures (System.reply process.image process.esp process.others) Change
      (SessionOf rounds) system := by
  induction rounds generalizing buf system with
  | zero => exact ⟨Session.spent, fun _ => rfl⟩
  | succ rounds ih =>
      rw [shell_loop]
      refine ensures_fdputs allowed stdout _ owned fun last owned => ?_
      intro changed change
      obtain ⟨⟨fdt_eq, argument_eq⟩, -⟩ := allowed _ last changed change
      have owned : changed.Owned process.esp fdt process.argument :=
        ⟨fdt_eq.trans owned.1, argument_eq.trans owned.2⟩
      obtain waits | ⟨line, after, answer, owned⟩ := reply_read_stdin stdin owned 1023
      · rw [waits]
        exact ⟨Session.prompted .., nofun⟩
      rw [answer]
      have command_eq := text_command line (buf.drop line.length)
      have read : (line.length : Int) ≠ -1 := by omega
      simp only [Dialogue.bind, overwrite_start, if_neg read]
      simp only at command_eq
      generalize List.set _ _ (0 : UInt8) = command at command_eq ⊢
      have exit_text : text (bytes "exit") = bytes "exit" := by decide
      by_cases exit : command_line line = bytes "exit"
      · have compared : ece391_strcmp command (bytes "exit") = 0 :=
          (ece391_strcmp_eq_zero_iff ..).mpr (command_eq.trans (exit.trans exit_text.symm))
        rw [if_pos compared]
        exact ⟨Session.exited exit after, nofun⟩
      have compared : ece391_strcmp command (bytes "exit") ≠ 0 := fun zero =>
        exit (command_eq.symm.trans (((ece391_strcmp_eq_zero_iff ..).mp zero).trans exit_text))
      rw [if_neg compared]
      have first_eq : command.getD 0 0 = first command := by cases command <;> rfl
      have empty_iff : command.getD 0 0 = 0 ↔ command_line line = [] := by
        rw [← command_eq, text_eq_first, first_eq]
        split_ifs with nul <;> simp [nul]
      by_cases empty : command_line line = []
      · rw [if_pos (empty_iff.mpr empty)]
        exact (ih command owned).mono fun log ending session => session.skipped empty
      rw [if_neg (mt empty_iff.mp empty)]
      intro changed change
      obtain ⟨⟨fdt_eq, argument_eq⟩, -⟩ := allowed _ after changed change
      cases called : System.reply process.image process.esp process.others changed
          (.execute command) with
      | none => exact ⟨Session.waits command_eq exit empty, nofun⟩
      | some answered =>
          obtain ⟨reply, last⟩ := answered
          obtain ⟨fdt_kept, argument_kept⟩ := keeps changed command reply last called
          exact shell_loop_resumes allowed stdout command_eq exit empty reply
            (fun last owned => ih command owned)
            ⟨fdt_kept.trans (fdt_eq.trans owned.1), argument_kept.trans (argument_eq.trans owned.2)⟩

end runs

/-- Keys are pressed. -/
def System.press (system : System) (codes : List UInt8) : System :=
  let devices := system.kernel.devices
  let tty := codes.foldl Tty.show_pressed_key devices.tty
  { system with kernel := { system.kernel with devices := { devices with tty } } }

/-- `ls` is typed before the first read and `exit` before the second. -/
def System.typed : Nat → UserCall → System → System
  | 2, _, system => system.press [0x26, 0x1F, 0x1C]
  | 5, _, system => system.press [0x12, 0x2D, 0x17, 0x14, 0x1C]
  | _, _, system => system

/-- A shell whose commands end at once. -/
def UserProcess.shell : UserProcess where
  image := Image.sample
  esp := 0x7FE000
  others system
    | .execute _ => some (⟨0, []⟩, system)
    | _ => none
  argument _ := 0
  known _ _ := True

/-- A kernel in which that shell has just been started. -/
def System.shell : System where
  kernel := Kernel.boot.modifyPcb (get_cur_pcb 0x7FE000) fun pcb =>
    { pcb with fdt := set_up_io_file pcb.fdt }
  page_table_VM := (paging_init 0 0).page_table_VM

end ComputerSystem
