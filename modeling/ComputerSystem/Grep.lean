import ComputerSystem.FilePrograms
import ComputerSystem.LinePieces

/-!
# grep

`do_one_file` reads a file through a buffer and searches it line by line; a line that the end of
the buffer cuts is moved to the start and read on.  One pass over the buffer reports the lines in
it, and leaves the part of a line that is read on.
-/

namespace ComputerSystem

open CString Dialogue UserProcess LinePieces

/-- `BUFSIZE` of `ece391grep`. -/
def BUFSIZE : Nat := 1024

/-! ## The program -/

/-- The scan for the end of a line, for at most so many bytes. -/
def find_line_end (data : List UInt8) (last : Nat) : Nat → Nat → Nat
  | 0, line_end => line_end
  | remaining + 1, line_end =>
      if line_end < last ∧ data.getD line_end 0 ≠ NEWLINE then
        find_line_end data last remaining (line_end + 1)
      else line_end

/-- The search of a line from `check` on, with so many bytes remaining. -/
def search_line (s fname : List UInt8) (s_len : Nat) (data : List UInt8) (line_start : Nat) :
    Nat → Nat → Dialogue UserCall Reply Unit
  | 0, _ => pure ()
  | remaining + 1, check =>
      if first s = data.getD check 0 ∧ ece391_strncmp (data.drop check) s s_len = 0 then do
        ece391_fdputs 1 fname
        ece391_fdputs 1 (bytes ":")
        ece391_fdputs 1 (data.drop line_start)
        ece391_fdputs 1 (bytes "\n")
      else search_line s fname s_len data line_start remaining (check + 1)

/-- The loop over the lines in the buffer, for at most so many rounds: the buffer and `last`
afterwards. -/
def search_lines (s fname : List UInt8) (s_len : Nat) (cnt : Int) (last : Nat) :
    Nat → List UInt8 → Nat → Dialogue UserCall Reply (List UInt8 × Nat)
  | 0, _, _ => spent
  | rounds + 1, data, line_start => do
      let line_end := find_line_end data last (last - line_start) line_start
      if data.getD line_end 0 ≠ NEWLINE ∧ cnt ≠ 0 ∧ line_start ≠ 0 then
        let data := data.set line_end 0
        let data := ece391_strcpy data 0 line_start data.length
        pure (data, last - line_start)
      else do
        let data := data.set line_end 0
        search_line s fname s_len data line_start (line_end - line_start) line_start
        let line_start := line_end + 1
        if line_start ≥ last then pure (data, 0)
        else search_lines s fname s_len cnt last rounds data line_start

/-- The loop over the reads of a file, for at most so many rounds: whether it got to the end. -/
def search_file (s fname : List UInt8) (s_len : Nat) (fd : Int) :
    Nat → List UInt8 → Nat → Dialogue UserCall Reply Bool
  | 0, _, _ => spent
  | rounds + 1, data, last => do
      let got ← request (.descriptor (.read fd false (BUFSIZE - last)))
      let data := overwrite data last got.bytes
      let cnt := got.result
      if cnt = -1 then do
        ece391_fdputs 1 (bytes "file read failed\n")
        pure false
      else do
        let last := last + cnt.toNat
        let (data, last) ← search_lines s fname s_len cnt last (last + 1) data 0
        if cnt = 0 then pure true else search_file s fname s_len fd rounds data last

/-- `do_one_file`; `data` starts with whatever is on the stack. -/
def do_one_file (rounds : Nat) (data s fname : List UInt8) : Dialogue UserCall Reply Int := do
  let s_len := ece391_strlen s
  let opened ← request (.descriptor (.open_file fname))
  if opened.result = -1 then do
    ece391_fdputs 1 (bytes "file open failed\n")
    pure (-1)
  else do
    let searched ← search_file s fname s_len opened.result rounds data 0
    if searched = false then pure (-1)
    else do
      let closed ← request (.descriptor (.close opened.result))
      if closed.result = -1 then do
        ece391_fdputs 1 (bytes "file close failed\n")
        pure (-1)
      else pure 0

/-- The loop of `ece391grep` over the directory, for at most so many rounds. -/
def grep_loop (search : List UInt8) (fd : Int) (file_rounds : Nat) (stack : Nat → List UInt8) :
    Nat → List UInt8 → Dialogue UserCall Reply Int
  | 0, _ => spent
  | rounds + 1, buf => do
      let got ← request (.descriptor (.read fd false 32))
      let buf := overwrite buf 0 got.bytes
      let cnt := got.result
      if cnt = 0 then pure 0
      else if cnt = -1 then do
        ece391_fdputs 1 (bytes "directory entry read failed\n")
        pure 3
      else if buf.getD 0 0 = 46 then grep_loop search fd file_rounds stack rounds buf   -- .
      else do
        let buf := buf.set cnt.toNat 0
        let failed ← do_one_file file_rounds (stack rounds) search buf
        if failed ≠ 0 then pure 3 else grep_loop search fd file_rounds stack rounds buf

/-- `main` of `ece391grep`; `stack n` is what `do_one_file` finds on the stack with `n` rounds to
go. -/
def grep_main (file_rounds rounds : Nat) (stack : Nat → List UInt8) (buf search : List UInt8) :
    Dialogue UserCall Reply Int := do
  let got ← request (.getargs BUFSIZE)
  let search := overwrite search 0 got.bytes
  if got.result ≠ 0 then do
    ece391_fdputs 1 (bytes "could not read argument\n")
    pure 3
  else do
    let opened ← request (.descriptor (.open_file (bytes ".")))
    if opened.result = -1 then do
      ece391_fdputs 1 (bytes "directory open failed\n")
      pure 2
    else grep_loop search opened.result file_rounds stack rounds buf

/-! ## One line -/

/-- What `grep` prints for a line. -/
def matched (s fname line : List UInt8) : List UInt8 :=
  if s <:+: line then fname ++ bytes ":" ++ line ++ bytes "\n" else []

/-- What `grep` prints for the lines of a file. -/
def report (s fname : List UInt8) (lines : List (List UInt8)) : List UInt8 :=
  lines.flatMap (matched s fname)

theorem report_cons (s fname line : List UInt8) (lines : List (List UInt8)) :
    report s fname (line :: lines) = matched s fname line ++ report s fname lines :=
  List.flatMap_cons

/-- The scan stops at the first newline, or at `last`. -/
theorem find_line_end_eq {front line : List UInt8} (rest : List UInt8) {last remaining : Nat}
    (solid : NEWLINE ∉ line) (inside : front.length + line.length ≤ last)
    (ends : front.length + line.length = last ∨ ∃ more, rest = NEWLINE :: more)
    (enough : line.length ≤ remaining) :
    find_line_end (front ++ (line ++ rest)) last remaining front.length =
      front.length + line.length := by
  induction line generalizing front remaining with
  | nil =>
      cases remaining with
      | zero => rfl
      | succ remaining =>
          rw [find_line_end, if_neg, List.length_nil, Nat.add_zero]
          rintro ⟨below, other⟩
          obtain ended | ⟨more, rfl⟩ := ends
          · simp only [List.length_nil] at ended
            omega
          · exact other (getD_behind front NEWLINE more)
  | cons c line ih =>
      rw [List.length_cons] at inside ends enough
      obtain ⟨remaining, rfl⟩ := Nat.exists_eq_succ_of_ne_zero (show remaining ≠ 0 by omega)
      rw [List.mem_cons, not_or] at solid
      have loaded : (front ++ (c :: line ++ rest)).getD front.length 0 = c :=
        getD_behind front c (line ++ rest)
      have moved := @ih (front ++ [c]) remaining solid.2
        (by rw [List.length_append, List.length_singleton]; omega)
        (by rw [List.length_append, List.length_singleton, Nat.add_assoc, Nat.add_comm 1]
            exact ends) (by omega)
      rw [List.length_append, List.length_singleton, List.append_assoc, List.singleton_append,
        Nat.add_assoc, Nat.add_comm 1 line.length] at moved
      rw [find_line_end, if_pos ⟨by omega, by rw [loaded]; exact Ne.symm solid.1⟩]
      exact moved

theorem text_line {line behind : List UInt8} (solid : 0 ∉ line) :
    text (line ++ 0 :: behind) = line :=
  text_append_nul (fun _ mem nul => solid (nul ▸ mem)) behind

theorem found_iff {s rest behind : List UInt8} {c : UInt8} (not_empty : text s ≠ [])
    (solid : 0 ∉ c :: rest) :
    (first s = c ∧ ece391_strncmp (c :: rest ++ 0 :: behind) s (ece391_strlen s) = 0) ↔
      text s <+: c :: rest := by
  rw [ece391_strncmp_eq_zero_iff, text_line solid, ece391_strlen, strlen_eq_length_text,
    List.take_length, List.prefix_iff_eq_take, eq_comm (a := (c :: rest).take _)]
  refine and_iff_right_of_imp fun starts => ?_
  rw [text_eq_first] at not_empty starts
  split_ifs at not_empty starts with nul
  · exact absurd rfl not_empty
  · rw [List.length_cons, List.take_succ_cons] at starts
    exact (List.cons.inj starts).1

variable {process : UserProcess} {fdt after : Fin 8 → Fd}

theorem prints_hit (stdout : fdt 1 = Fd.stdout) (fname line : List UInt8) :
    process.Prints (do
        ece391_fdputs 1 fname
        ece391_fdputs 1 (bytes ":")
        ece391_fdputs 1 line
        ece391_fdputs 1 (bytes "\n"))
      (text fname ++ bytes ":" ++ text line ++ bytes "\n") () fdt fdt := by
  have colon : process.Prints (ece391_fdputs 1 (bytes ":")) (bytes ":") () fdt fdt :=
    prints_fdputs stdout (bytes ":")
  have newline : process.Prints (ece391_fdputs 1 (bytes "\n")) (bytes "\n") () fdt fdt :=
    prints_fdputs stdout (bytes "\n")
  refine ((prints_fdputs stdout fname).bind
    (colon.bind ((prints_fdputs stdout line).bind newline))).of_eq ?_
  simp only [List.append_assoc]

theorem search_line_rest (stdout : fdt 1 = Fd.stdout) {s : List UInt8} (not_empty : text s ≠ [])
    (fname seen : List UInt8) {front rest behind : List UInt8} (solid : 0 ∉ seen ++ rest) :
    process.Prints (search_line s fname (ece391_strlen s)
        (front ++ (seen ++ rest ++ 0 :: behind)) front.length rest.length
        (front.length + seen.length))
      (if text s <:+: rest then text fname ++ bytes ":" ++ (seen ++ rest) ++ bytes "\n" else [])
      () fdt fdt := by
  induction rest generalizing seen with
  | nil =>
      rw [if_neg]
      · exact prints_done ()
      · rw [List.infix_nil]
        exact not_empty
  | cons c rest ih =>
      have solid_rest : 0 ∉ c :: rest := fun mem => solid (List.mem_append_right seen mem)
      have loaded : (front ++ (seen ++ c :: rest ++ 0 :: behind)).getD
          (front.length + seen.length) 0 = c := by
        have at_end := getD_behind (front ++ seen) c (rest ++ 0 :: behind)
        simpa only [List.length_append, List.append_assoc, List.cons_append] using at_end
      have dropped : (front ++ (seen ++ c :: rest ++ 0 :: behind)).drop
          (front.length + seen.length) = c :: rest ++ 0 :: behind := by
        rw [List.drop_length_add_append, List.append_assoc, List.drop_left]
      rw [List.length_cons, search_line, loaded, dropped]
      by_cases here : text s <+: c :: rest
      · rw [if_pos ((found_iff not_empty solid_rest).mpr here),
          if_pos (List.infix_cons_iff.mpr (Or.inl here)), List.drop_left]
        refine (prints_hit stdout fname (seen ++ c :: rest ++ 0 :: behind)).of_eq ?_
        rw [text_line solid]
      · have later : text s <:+: c :: rest ↔ text s <:+: rest := by
          rw [List.infix_cons_iff, or_iff_right here]
        rw [if_neg fun found => here ((found_iff not_empty solid_rest).mp found)]
        simp only [later]
        have moved := @ih (seen ++ [c]) (by simpa using solid)
        simpa only [List.append_assoc, List.singleton_append, List.length_append,
          List.length_singleton, Nat.add_assoc] using moved

theorem search_line_prints (stdout : fdt 1 = Fd.stdout) {s : List UInt8} (not_empty : text s ≠ [])
    (fname : List UInt8) {front line behind : List UInt8} (solid : 0 ∉ line) :
    process.Prints (search_line s fname (ece391_strlen s) (front ++ (line ++ 0 :: behind))
        front.length line.length front.length)
      (matched (text s) (text fname) line) () fdt fdt :=
  search_line_rest stdout not_empty fname [] solid

/-! ## The lines in the buffer -/

section rounds

variable {s fname : List UInt8} {s_len : Nat} {cnt : Int} {last rounds : Nat}
  {front line stale : List UInt8}

/-- A line that a newline ends is searched. -/
theorem search_lines_newline (solid : NEWLINE ∉ line) (inside : front.length + line.length < last) :
    let data := front ++ (line ++ 0 :: stale)
    let next := front.length + line.length + 1
    search_lines s fname s_len cnt last (rounds + 1) (front ++ (line ++ NEWLINE :: stale))
        front.length =
      (do
        search_line s fname s_len data front.length line.length front.length
        if next ≥ last then pure (data, 0)
        else search_lines s fname s_len cnt last rounds data next) := by
  have line_end := find_line_end_eq (NEWLINE :: stale) solid inside.le (Or.inr ⟨stale, rfl⟩)
    (show line.length ≤ last - front.length by omega)
  have loaded := getD_behind (front ++ line) NEWLINE stale
  have stored := set_behind (front ++ line) NEWLINE 0 stale
  simp only [List.append_assoc, List.length_append] at loaded stored
  rw [search_lines]
  simp only [line_end, loaded, stored, ne_eq, not_true_eq_false, false_and, if_false,
    Nat.add_sub_cancel_left]

/-- What is left in the buffer behind the last newline is searched as a line, when the file or the
buffer holds no more of it. -/
theorem search_lines_ends {b : UInt8} (solid : NEWLINE ∉ line)
    (ended : front.length + line.length = last) (searched : b = NEWLINE ∨ cnt = 0 ∨ front = []) :
    let data := front ++ (line ++ 0 :: stale)
    search_lines s fname s_len cnt last (rounds + 1) (front ++ (line ++ b :: stale)) front.length =
      (do
        search_line s fname s_len data front.length line.length front.length
        pure (data, 0)) := by
  have line_end := find_line_end_eq (b :: stale) solid ended.le (Or.inl ended)
    (show line.length ≤ last - front.length by omega)
  have loaded := getD_behind (front ++ line) b stale
  have stored := set_behind (front ++ line) b 0 stale
  simp only [List.append_assoc, List.length_append] at loaded stored
  have goes_on : ¬(b ≠ NEWLINE ∧ cnt ≠ 0 ∧ front.length ≠ 0) := by
    rintro ⟨other, read, started⟩
    obtain rfl | rfl | rfl := searched
    · exact other rfl
    · exact read rfl
    · exact started rfl
  have past : front.length + line.length + 1 ≥ last := by omega
  rw [search_lines]
  simp only [line_end, loaded, stored, if_neg goes_on, if_pos past, Nat.add_sub_cancel_left]

/-- Otherwise it is moved to the start. -/
theorem search_lines_moves {b : UInt8} (solid : NEWLINE ∉ line) (no_nul : 0 ∉ line)
    (ended : front.length + line.length = last) (other : b ≠ NEWLINE) (read : cnt ≠ 0)
    (started : front ≠ []) :
    search_lines s fname s_len cnt last (rounds + 1) (front ++ (line ++ b :: stale)) front.length =
      pure (line ++ 0 :: (front ++ (line ++ 0 :: stale)).drop (line.length + 1), line.length) := by
  have line_end := find_line_end_eq (b :: stale) solid ended.le (Or.inl ended)
    (show line.length ≤ last - front.length by omega)
  have loaded := getD_behind (front ++ line) b stale
  have stored := set_behind (front ++ line) b 0 stale
  simp only [List.append_assoc, List.length_append] at loaded stored
  have enough : line.length < (front ++ (line ++ 0 :: stale)).length := by
    simp only [List.length_append, List.length_cons]
    omega
  have moved := @ece391_strcpy_moves [] front line stale started
    (fun c mem nul => no_nul (nul ▸ mem)) _ enough
  rw [List.nil_append, List.nil_append, List.length_nil, Nat.zero_add] at moved
  have not_start : front.length ≠ 0 := fun zero => started (List.eq_nil_of_length_eq_zero zero)
  rw [search_lines]
  simp only [line_end, loaded, stored, moved, if_pos (And.intro other (And.intro read not_start))]
  rw [← ended, Nat.add_sub_cancel_left]

end rounds

/-- A buffer that starts with the part of a line read so far. -/
structure Buffered (data line : List UInt8) : Prop where
  /-- The buffer and the byte behind it. -/
  length : data.length = BUFSIZE + 1
  /-- The part of the line is at its start. -/
  starts : ∃ stale, data = line ++ stale
  /-- There is room to read on. -/
  short : line.length < BUFSIZE
  /-- The line has not ended. -/
  whole : NEWLINE ∉ line
  /-- It has no NUL. -/
  no_nul : 0 ∉ line
  /-- The byte behind the buffer ends no line. -/
  last_byte : data.getD BUFSIZE 0 ≠ NEWLINE

/-- Storing a NUL does not put a newline at the end of the buffer. -/
theorem last_byte_stored (front stale : List UInt8) {b : UInt8}
    (last_byte : (front ++ b :: stale).getD BUFSIZE 0 ≠ NEWLINE) :
    (front ++ 0 :: stale).getD BUFSIZE 0 ≠ NEWLINE := by
  rw [← set_behind front b 0 stale, List.getD_eq_getElem?_getD, List.getElem?_set]
  rw [List.getD_eq_getElem?_getD] at last_byte
  split_ifs
  · decide
  · decide
  · exact last_byte

theorem buffered_nil {data : List UInt8} (length : data.length = BUFSIZE + 1)
    (last_byte : data.getD BUFSIZE 0 ≠ NEWLINE) : Buffered data [] where
  length := length
  starts := ⟨data, rfl⟩
  short := by decide
  whole := List.not_mem_nil
  no_nul := List.not_mem_nil
  last_byte := last_byte

theorem buffered_moved {front line stale : List UInt8}
    (total : (front ++ (line ++ 0 :: stale)).length = BUFSIZE + 1) (started : front ≠ [])
    (solid : NEWLINE ∉ line) (no_nul : 0 ∉ line)
    (last_byte : (front ++ (line ++ 0 :: stale)).getD BUFSIZE 0 ≠ NEWLINE) :
    Buffered (line ++ 0 :: (front ++ (line ++ 0 :: stale)).drop (line.length + 1)) line := by
  have front_pos := List.length_pos_iff.mpr started
  set data := front ++ (line ++ 0 :: stale) with data_eq
  have line_lt : line.length < BUFSIZE := by
    rw [data_eq] at total
    simp only [List.length_append, List.length_cons] at total
    omega
  refine ⟨?_, ⟨_, rfl⟩, line_lt, solid, no_nul, ?_⟩
  · rw [List.length_append, List.length_cons, List.length_drop, total]
    omega
  · obtain ⟨more, size_eq⟩ := Nat.exists_eq_add_of_lt line_lt
    rw [size_eq, List.getD_append_right _ _ _ _ (by omega), Nat.add_assoc, Nat.add_sub_cancel_left,
      List.getD_cons_succ, List.getD_eq_getElem?_getD, List.getElem?_drop,
      ← List.getD_eq_getElem?_getD, Nat.add_right_comm, ← size_eq]
    exact last_byte

theorem report_nil (s fname : List UInt8) : report s fname (pieces NEWLINE BUFSIZE []) = [] := by
  rw [pieces_nil]
  rfl

/-- Printing behind which nothing is displayed. -/
theorem prints_then {program : Dialogue UserCall Reply Unit} {output : List UInt8}
    (prints : process.Prints program output () fdt after) {Result : Type} (result : Result) :
    process.Prints (do program; pure result) output result fdt after :=
  (prints.bind (prints_done result)).of_eq (List.append_nil output)

/-- The lines in the buffer are reported, but for the last one if it is moved. -/
theorem search_lines_prints (stdout : fdt 1 = Fd.stdout) {s : List UInt8} (not_empty : text s ≠ [])
    (fname : List UInt8) {cnt : Int} (read : cnt ≠ 0) {last rounds : Nat}
    {front todo stale : List UInt8} (ended : front.length + todo.length = last)
    (total : (front ++ (todo ++ stale)).length = BUFSIZE + 1)
    (last_byte : (front ++ (todo ++ stale)).getD BUFSIZE 0 ≠ NEWLINE) (fits : last ≤ BUFSIZE)
    (some_left : todo ≠ []) (no_nul : 0 ∉ todo) (enough : todo.length < rounds) :
    ∃ output data line,
      process.Prints (search_lines s fname (ece391_strlen s) cnt last rounds
        (front ++ (todo ++ stale)) front.length) output (data, line.length) fdt fdt ∧
      Buffered data line ∧
      ∀ more, last = BUFSIZE ∨ more = [] →
        report (text s) (text fname) (pieces NEWLINE BUFSIZE (todo ++ more)) =
          output ++ report (text s) (text fname) (pieces NEWLINE BUFSIZE (line ++ more)) := by
  induction rounds generalizing front todo with
  | zero => omega
  | succ rounds ih =>
      by_cases mem : NEWLINE ∈ todo
      · obtain ⟨line, rest, rfl, solid⟩ := List.eq_append_cons_of_mem mem
        have line_no_nul : 0 ∉ line := fun here => no_nul (List.mem_append_left _ here)
        have rest_no_nul : 0 ∉ rest := fun here =>
          no_nul (List.mem_append_right _ (List.mem_cons_of_mem _ here))
        simp only [List.length_append, List.length_cons] at ended total enough
        have searched := @search_line_prints process _ stdout _ not_empty fname front line
          (rest ++ stale) line_no_nul
        have piece (more : List UInt8) :
            pieces NEWLINE BUFSIZE ((line ++ NEWLINE :: rest) ++ more) =
              line :: pieces NEWLINE BUFSIZE (rest ++ more) := by
          rw [List.append_assoc, List.cons_append]
          exact pieces_line solid (by omega)
        rw [List.append_assoc line, List.cons_append] at last_byte ⊢
        rw [search_lines_newline solid (by omega)]
        have stored := @last_byte_stored (front ++ line) (rest ++ stale) NEWLINE
          (by rwa [List.append_assoc])
        rw [List.append_assoc] at stored
        have length : (front ++ (line ++ 0 :: (rest ++ stale))).length = BUFSIZE + 1 := by
          simp only [List.length_append, List.length_cons]
          omega
        by_cases done : rest = []
        · subst done
          rw [List.length_nil] at ended
          refine ⟨matched (text s) (text fname) line, _, [], ?_, buffered_nil length stored,
            fun more _ => ?_⟩
          · rw [if_pos (by omega)]
            exact prints_then searched _
          · rw [piece, report_cons, List.nil_append]
        · have rest_pos := List.length_pos_iff.mpr done
          have shifted : front ++ (line ++ 0 :: (rest ++ stale)) =
              front ++ (line ++ [0]) ++ (rest ++ stale) := by
            simp only [List.append_assoc, List.singleton_append]
          have next : front.length + line.length + 1 = (front ++ (line ++ [0])).length := by
            simp only [List.length_append, List.length_singleton, Nat.add_assoc]
          rw [shifted] at length stored
          obtain ⟨output, data, left, prints, buffered, behind⟩ :=
            ih (by rw [← next]; omega) length stored done rest_no_nul (by omega)
          refine ⟨matched (text s) (text fname) line ++ output, data, left, ?_, buffered,
            fun more full => ?_⟩
          · rw [if_neg (by omega), shifted, next]
            rw [shifted] at searched
            exact searched.bind prints
          · rw [piece, report_cons, behind more full, List.append_assoc]
      · obtain ⟨b, stale, rfl⟩ : ∃ b rest, stale = b :: rest := by
          apply List.exists_cons_of_ne_nil
          rintro rfl
          simp only [List.append_nil, List.length_append] at total
          omega
        have stored := @last_byte_stored (front ++ todo) stale b (by rwa [List.append_assoc])
        rw [List.append_assoc] at stored
        have length : (front ++ (todo ++ 0 :: stale)).length = BUFSIZE + 1 := by
          simpa only [List.length_append, List.length_cons] using total
        by_cases moves : b ≠ NEWLINE ∧ front ≠ []
        · refine ⟨[], _, todo, ?_, buffered_moved length moves.2 mem no_nul stored, fun _ _ => rfl⟩
          rw [search_lines_moves mem no_nul ended moves.1 read moves.2]
          exact prints_done _
        · have searched : b = NEWLINE ∨ cnt = 0 ∨ front = [] := by tauto
          refine ⟨matched (text s) (text fname) todo, _, [], ?_, buffered_nil length stored,
            fun more full => ?_⟩
          · rw [search_lines_ends mem ended searched]
            exact prints_then (search_line_prints stdout not_empty fname no_nul) _
          · rw [← report_cons, List.nil_append]
            congr 1
            by_cases whole : todo.length = BUFSIZE
            · exact pieces_full _ mem whole (by decide)
            · -- with a stale newline at its end the buffer is not full
              have not_full : last ≠ BUFSIZE := by
                rintro rfl
                have at_end := getD_behind (front ++ todo) b stale
                rw [List.append_assoc, List.length_append, ended] at at_end
                rw [at_end] at last_byte
                have started : front ≠ [] := by
                  rintro rfl
                  exact whole (by simpa using ended)
                exact moves ⟨last_byte, started⟩
              rw [full.resolve_left not_full, List.append_nil, pieces_nil]
              exact pieces_last mem some_left (by omega)

end ComputerSystem
