import ComputerSystem.Printf

/-!
# Number formatting

`itoa` and `strrev` in the buffer they work in, and the conversions of `printf` that print numbers
from its stack buffer.  A buffer is the memory from its pointer on.  The bytes that come out are the
ones of `itoa` and `printf` as texts, and those read back as the number.
-/

namespace ComputerSystem

open CString Word

/-- The loop of `itoa`: the digits go to `newbuf` on. -/
def itoa_fill (radix : Nat) : Nat → List UInt8 → Nat → Nat → List UInt8 × Nat
  | 0, buf, newbuf, _ => (buf, newbuf)
  | places + 1, buf, newbuf, newval =>
      if newval > 0 then
        itoa_fill radix places (buf.set newbuf (lookup.getD (newval % radix) 0)) (newbuf + 1)
          (newval / radix)
      else (buf, newbuf)

/-- The loop of `strrev`. -/
def strrev_loop : Nat → List UInt8 → Nat → Nat → List UInt8
  | 0, s, _, _ => s
  | rounds + 1, s, first, last =>
      if first < last then
        let tmp := s.getD last 0
        strrev_loop rounds ((s.set last (s.getD first 0)).set first tmp) (first + 1) (last - 1)
      else s

/-- `strrev`.  For an empty string `end` is -1 there and 0 here, which is not above `beg` either. -/
def strrev (s : List UInt8) : List UInt8 := strrev_loop (strlen s) s 0 (strlen s - 1)

/-- `itoa`: the buffer afterwards. -/
def itoa_buffer (value : Nat) (buf : List UInt8) (radix : Nat) : List UInt8 :=
  if value = 0 then (buf.set 0 48).set 1 0
  else
    let (buf, newbuf) := itoa_fill radix 32 buf 0 value
    strrev (buf.set newbuf 0)

/-- `%x`: what `puts` gets.  The digits of `%#x` lie behind the first eight bytes, and zeros go in
front of them up to there. -/
def convert_x (conv_buf : List UInt8) (alternate : Bool) (word : Nat) : List UInt8 :=
  if alternate then
    let conv_buf := conv_buf.take 8 ++ itoa_buffer word (conv_buf.drop 8) 16
    let starting_index := strlen (conv_buf.drop 8)
    let conv_buf := (List.range' starting_index (8 - starting_index)).foldl
      (fun conv_buf i => conv_buf.set i 48) conv_buf
    text (conv_buf.drop starting_index)
  else
    text (itoa_buffer word conv_buf 16)

/-- `%u`: what `puts` gets. -/
def convert_u (conv_buf : List UInt8) (word : Nat) : List UInt8 :=
  text (itoa_buffer word conv_buf 10)

/-- `%d`: what `puts` gets. -/
def convert_d (conv_buf : List UInt8) (word : Nat) : List UInt8 :=
  let value := toSigned word
  if value < 0 then
    let conv_buf := conv_buf.set 0 45
    text (conv_buf.take 1 ++ itoa_buffer (toUnsigned (-value)) (conv_buf.drop 1) 10)
  else text (itoa_buffer word conv_buf 10)

/-! ## The buffer -/

theorem itoa_fill_eq (radix places : Nat) (written rest : List UInt8) (newval : Nat)
    (room : (itoa_loop radix places newval).length ≤ rest.length) :
    itoa_fill radix places (written ++ rest) written.length newval =
      (written ++ itoa_loop radix places newval ++
          rest.drop (itoa_loop radix places newval).length,
        written.length + (itoa_loop radix places newval).length) := by
  induction places generalizing written rest newval with
  | zero => simp [itoa_fill, itoa_loop]
  | succ places ih =>
      rw [itoa_fill, itoa_loop] at *
      split_ifs at room ⊢
      · cases rest with
        | nil => simp at room
        | cons c rest =>
            have stored : (written ++ c :: rest).set written.length
                (lookup.getD (newval % radix) 0) =
                  (written ++ [lookup.getD (newval % radix) 0]) ++ rest := by
              simp
            have next := ih (written ++ [lookup.getD (newval % radix) 0]) rest (newval / radix)
              (by simpa using room)
            rw [List.length_append, List.length_singleton] at next
            rw [stored, next]
            simp [Nat.add_assoc, Nat.add_comm 1]
      · simp

theorem swap_ends (before middle behind : List UInt8) (x y : UInt8) :
    let s := before ++ x :: middle ++ y :: behind
    let last := before.length + (middle.length + 1)
    (s.set last (s.getD before.length 0)).set before.length (s.getD last 0) =
      before ++ y :: middle ++ x :: behind := by
  intro s last
  have first_eq : s.getD before.length 0 = x := by simp [s]
  have last_eq : s.getD last 0 = y := by simp [s, last]
  rw [first_eq, last_eq]
  simp [s, last]

/-- Swapping from both ends reverses what lies between. -/
theorem strrev_loop_eq (rounds : Nat) (before middle behind : List UInt8)
    (enough : middle.length ≤ rounds) :
    strrev_loop rounds (before ++ middle ++ behind) before.length
      (before.length + middle.length - 1) = before ++ middle.reverse ++ behind := by
  induction rounds generalizing before middle behind with
  | zero =>
      obtain rfl : middle = [] := List.eq_nil_of_length_eq_zero (Nat.le_zero.mp enough)
      rfl
  | succ rounds ih =>
      rw [strrev_loop]
      rcases middle with _ | ⟨x, middle⟩
      · rw [if_neg (by simp)]
        rfl
      · rcases List.eq_nil_or_concat middle with rfl | ⟨middle, y, rfl⟩
        · rw [if_neg (by simp)]
          rfl
        · have last_eq : before.length + (x :: middle.concat y).length - 1 =
              before.length + (middle.length + 1) := by simp
          have split_eq : before ++ x :: middle.concat y ++ behind =
              before ++ x :: middle ++ y :: behind := by simp
          have next := ih (before ++ [y]) middle (x :: behind) (by simp at enough; omega)
          have ends : (before ++ [y]).length = before.length + 1 := by simp
          have regroup (middle : List UInt8) : before ++ [y] ++ middle ++ x :: behind =
              before ++ y :: middle ++ x :: behind := by simp
          have last_next : before.length + (middle.length + 1) - 1 =
              before.length + 1 + middle.length - 1 := by omega
          rw [last_eq, split_eq, if_pos (by omega)]
          simp only [swap_ends]
          rw [ends, regroup, regroup] at next
          rw [last_next, next]
          simp

/-- The loops write the number, the other way round first, and a NUL behind it. -/
theorem itoa_buffer_eq (value : Nat) (buf : List UInt8) (radix : Nat)
    (room : (itoa value radix).length < buf.length) (solid : ∀ c ∈ itoa value radix, c ≠ 0) :
    itoa_buffer value buf radix =
      itoa value radix ++ 0 :: buf.drop ((itoa value radix).length + 1) := by
  rw [itoa_buffer]
  rw [itoa] at *
  split_ifs at room solid ⊢
  · match buf, room with
    | _ :: _ :: _, _ => rfl
  · rw [List.length_reverse] at room
    have filled := itoa_fill_eq radix 32 [] buf value room.le
    simp only [List.nil_append, List.length_nil, Nat.zero_add] at filled
    have digits_solid : ∀ c ∈ itoa_loop radix 32 value, c ≠ 0 :=
      fun c mem => solid c (List.mem_reverse.mpr mem)
    generalize itoa_loop radix 32 value = digits at *
    have ended : (digits ++ buf.drop digits.length).set digits.length 0 =
        digits ++ 0 :: buf.drop (digits.length + 1) := by
      rw [List.set_append_right _ _ le_rfl, Nat.sub_self, List.drop_eq_getElem_cons room]
      rfl
    have length_eq : strlen (digits ++ 0 :: buf.drop (digits.length + 1)) = digits.length := by
      rw [strlen_eq_length_text, text_append_nul digits_solid]
    have reversed :=
      strrev_loop_eq digits.length [] digits (0 :: buf.drop (digits.length + 1)) le_rfl
    simp only [List.nil_append, List.length_nil, Nat.zero_add] at reversed
    rw [filled]
    simp only
    rw [ended, strrev, length_eq, reversed, List.length_reverse]

/-! ## The digits -/

theorem lookup_getD : ∀ d < 36, lookup.getD d 0 ≠ 0 ∧ lookup.idxOf (lookup.getD d 0) = d := by
  decide

theorem itoa_loop_eq_digits {radix : Nat} (two_le : 2 ≤ radix) (places : Nat) {newval : Nat}
    (fits : newval < radix ^ places) :
    itoa_loop radix places newval = (Nat.digits radix newval).map fun d => lookup.getD d 0 := by
  induction places generalizing newval with
  | zero =>
      obtain rfl : newval = 0 := by simpa using fits
      simp [itoa_loop]
  | succ places ih =>
      rw [itoa_loop]
      split_ifs with positive
      · have rest : newval / radix < radix ^ places := by
          rw [pow_succ'] at fits
          exact Nat.div_lt_of_lt_mul fits
        rw [ih rest, Nat.digits_def' two_le positive, List.map_cons]
      · obtain rfl : newval = 0 := Nat.le_zero.mp (Nat.not_lt.mp positive)
        simp

/-- The number that a text of digits denotes. -/
def evaluate (radix : Nat) (s : List UInt8) : Nat :=
  s.foldl (fun value c => radix * value + lookup.idxOf c) 0

/-- A text that denotes a number in a radix, with no zero in front of another digit. -/
structure Numeral (radix value : Nat) (s : List UInt8) : Prop where
  /-- The digits are those of the radix. -/
  digits : ∀ c ∈ s, c ≠ 0 ∧ lookup.idxOf c < radix
  /-- Their value is the number. -/
  evaluates : evaluate radix s = value
  /-- There is a digit. -/
  not_empty : s ≠ []
  /-- Zero in front stands alone. -/
  leading : s.head? = some 48 → s = [48]

theorem evaluate_digits (radix : Nat) {digits : List Nat} (small : ∀ d ∈ digits, d < 36) :
    evaluate radix (digits.map fun d => lookup.getD d 0).reverse = Nat.ofDigits radix digits := by
  rw [evaluate, List.foldl_reverse]
  induction digits with
  | nil => rfl
  | cons d digits ih =>
      rw [List.forall_mem_cons] at small
      rw [List.map_cons, List.foldr_cons, ih small.2, (lookup_getD d small.1).2, Nat.ofDigits_cons]
      exact Nat.add_comm _ _

theorem numeral_itoa {radix value : Nat} (two_le : 2 ≤ radix) (le : radix ≤ 36)
    (word : value < 2 ^ 32) : Numeral radix value (itoa value radix) := by
  rw [itoa]
  split_ifs with zero
  · subst zero
    refine ⟨?_, rfl, List.cons_ne_nil _ _, fun _ => rfl⟩
    intro c mem
    obtain rfl := List.mem_singleton.mp mem
    exact ⟨by decide, two_le.trans_lt' (by decide)⟩
  · have fits : value < radix ^ 32 := word.trans_le (Nat.pow_le_pow_left two_le 32)
    have below : ∀ d ∈ Nat.digits radix value, d < radix := fun _ => Nat.digits_lt_base two_le
    have small : ∀ d ∈ Nat.digits radix value, d < 36 := fun d mem => (below d mem).trans_le le
    have not_empty : Nat.digits radix value ≠ [] := Nat.digits_ne_nil_iff_ne_zero.mpr zero
    rw [itoa_loop_eq_digits two_le 32 fits]
    refine ⟨?_, ?_, ?_, ?_⟩
    · intro c mem
      obtain ⟨d, d_mem, rfl⟩ := List.mem_map.mp (List.mem_reverse.mp mem)
      obtain ⟨solid, index⟩ := lookup_getD d (small d d_mem)
      exact ⟨solid, index.trans_lt (below d d_mem)⟩
    · rw [evaluate_digits radix small, Nat.ofDigits_digits]
    · simpa using not_empty
    · intro leading
      rw [List.head?_reverse, List.getLast?_map, List.getLast?_eq_some_getLast not_empty] at leading
      have last_mem := List.getLast_mem not_empty
      have first : lookup.getD ((Nat.digits radix value).getLast not_empty) 0 = 48 :=
        Option.some.inj leading
      have index := (lookup_getD _ (small _ last_mem)).2
      rw [first] at index
      exact absurd index.symm (Nat.getLast_digit_ne_zero radix zero)

/-- In a buffer with room for it, `itoa` leaves the numeral with a NUL behind it. -/
theorem text_itoa_buffer {radix value : Nat} (two_le : 2 ≤ radix) (le : radix ≤ 36)
    (word : value < 2 ^ 32) {buf : List UInt8} (room : (itoa value radix).length < buf.length) :
    itoa_buffer value buf radix =
        itoa value radix ++ 0 :: buf.drop ((itoa value radix).length + 1) ∧
      text (itoa_buffer value buf radix) = itoa value radix := by
  have solid : ∀ c ∈ itoa value radix, c ≠ 0 :=
    fun c mem => ((numeral_itoa two_le le word).digits c mem).1
  have buffer_eq := itoa_buffer_eq value buf radix room solid
  exact ⟨buffer_eq, buffer_eq ▸ text_append_nul solid _⟩

theorem itoa_length_le {radix value places : Nat} (two_le : 2 ≤ radix) (word : value < 2 ^ 32)
    (positive : 0 < places) (fits : value < radix ^ places) :
    (itoa value radix).length ≤ places := by
  rw [itoa]
  split_ifs
  · exact positive
  · have room : value < radix ^ 32 := word.trans_le (Nat.pow_le_pow_left two_le 32)
    rw [List.length_reverse, itoa_loop_eq_digits two_le 32 room, List.length_map]
    exact (Nat.digits_length_le_iff two_le value).mpr fits

/-! ## The conversions -/

theorem convert_u_eq {word : Nat} (bound : word < 2 ^ 32) {conv_buf : List UInt8}
    (size : conv_buf.length = 36) : convert_u conv_buf word = itoa word 10 := by
  have room : (itoa word 10).length ≤ 10 :=
    itoa_length_le (by decide) bound (by decide) (bound.trans (by decide))
  exact (text_itoa_buffer (by decide) (by decide) bound (by omega)).2

theorem toUnsigned_neg {word : Nat} (bound : word < 2 ^ 32) (negative : toSigned word < 0) :
    (toUnsigned (-toSigned word) : Int) = -toSigned word ∧
      toUnsigned (-toSigned word) ≤ 2 ^ 31 := by
  rw [toSigned] at *
  split_ifs at negative ⊢ with small
  · omega
  · rw [toUnsigned]
    omega

theorem convert_d_eq {word : Nat} (bound : word < 2 ^ 32) {conv_buf : List UInt8}
    (size : conv_buf.length = 36) : convert_d conv_buf word = decimal word := by
  rw [decimal]
  simp only [convert_d]
  split_ifs with negative
  · obtain ⟨-, small⟩ := toUnsigned_neg bound negative
    generalize toUnsigned (-toSigned word) = magnitude at small ⊢
    have room : (itoa magnitude 10).length ≤ 10 :=
      itoa_length_le (by decide) (by omega) (by decide) (by omega)
    cases conv_buf with
    | nil => cases size
    | cons c conv_buf =>
        have inside : (itoa magnitude 10).length < conv_buf.length := by
          rw [List.length_cons] at size
          omega
        have digits := (text_itoa_buffer (by decide) (by decide) (by omega) inside).2
        rw [List.set_cons_zero, List.drop_one, List.tail_cons, List.take_succ_cons, List.take_zero,
          List.singleton_append, text_cons, if_neg (by decide), digits]
  · exact convert_u_eq bound size

theorem zeros_eq (before middle behind : List UInt8) :
    (List.range' before.length middle.length).foldl (fun buf i => buf.set i 48)
        (before ++ middle ++ behind) =
      before ++ List.replicate middle.length 48 ++ behind := by
  induction middle generalizing before with
  | nil => simp
  | cons c middle ih =>
      have stored : (before ++ c :: middle ++ behind).set before.length 48 =
          before ++ [48] ++ middle ++ behind := by simp
      have next := ih (before ++ [48])
      rw [List.length_append, List.length_singleton] at next
      rw [List.length_cons, List.range'_succ, List.foldl_cons, stored, next, List.replicate_succ]
      simp

theorem convert_x_eq {word : Nat} (bound : word < 2 ^ 32) {conv_buf : List UInt8}
    (size : conv_buf.length = 64) (alternate : Bool) :
    convert_x conv_buf alternate word = hexadecimal alternate word := by
  have room : (itoa word 16).length ≤ 8 :=
    itoa_length_le (by decide) bound (by decide) (bound.trans_le (by decide))
  have solid : ∀ c ∈ itoa word 16, c ≠ 0 :=
    fun c mem => ((numeral_itoa (by decide) (by decide) bound).digits c mem).1
  cases alternate with
  | false =>
      exact (text_itoa_buffer (by decide) (by decide) bound (by omega)).2
  | true =>
      have inside : (itoa word 16).length < (conv_buf.drop 8).length := by
        rw [List.length_drop]
        omega
      obtain ⟨buffer_eq, text_eq⟩ := text_itoa_buffer (by decide) (by decide) bound inside
      have front : (conv_buf.take 8).length = 8 := by
        rw [List.length_take]
        omega
      have behind : (conv_buf.take 8 ++ itoa_buffer word (conv_buf.drop 8) 16).drop 8 =
          itoa_buffer word (conv_buf.drop 8) 16 := List.drop_left' front
      have index : strlen (itoa_buffer word (conv_buf.drop 8) 16) = (itoa word 16).length := by
        rw [strlen_eq_length_text, text_eq]
      simp only [convert_x, if_true, behind, index, hexadecimal]
      generalize itoa_buffer word (conv_buf.drop 8) 16 = written at *
      generalize itoa word 16 = digits at *
      have split_eq : conv_buf.take 8 ++ written =
          (conv_buf.take 8).take digits.length ++ (conv_buf.take 8).drop digits.length ++
            written := by
        rw [List.take_append_drop]
      have start : ((conv_buf.take 8).take digits.length).length = digits.length := by
        rw [List.length_take]
        omega
      have count : ((conv_buf.take 8).drop digits.length).length = 8 - digits.length := by
        rw [List.length_drop, front]
      have filled := zeros_eq ((conv_buf.take 8).take digits.length)
        ((conv_buf.take 8).drop digits.length) written
      rw [start, count, ← split_eq] at filled
      rw [filled, List.append_assoc, List.drop_left' start, buffer_eq, ← List.append_assoc]
      apply text_append_nul
      rw [List.forall_mem_append]
      refine ⟨fun c mem => ?_, solid⟩
      rw [List.eq_of_mem_replicate mem]
      decide

/-- `printf` prints a text for a conversion and goes on behind it with the next argument. -/
def Prints (conversion : List UInt8) (word : Nat) (s : List UInt8) : Prop :=
  ∀ format args, printf_scan none (conversion ++ format) (.ofWord word :: args) =
    ((printf_scan none format args).1 + conversion.length, s ++ (printf_scan none format args).2)

/-- What the number conversions make of a word, whatever the buffers hold before. -/
structure FormatsNumber (word : Nat) : Prop where
  /-- `itoa` in a buffer with room. -/
  itoa_buffer : ∀ radix, 2 ≤ radix → radix ≤ 36 → ∀ buf : List UInt8,
    (itoa word radix).length < buf.length →
      ∃ s behind, itoa_buffer word buf radix = s ++ 0 :: behind ∧ Numeral radix word s
  /-- The conversion `%u`. -/
  u : ∀ conv_buf : List UInt8, conv_buf.length = 36 →
    Prints (bytes "%u") word (convert_u conv_buf word) ∧
      Numeral 10 word (convert_u conv_buf word)
  /-- The conversion `%d`. -/
  d : ∀ conv_buf : List UInt8, conv_buf.length = 36 →
    Prints (bytes "%d") word (convert_d conv_buf word) ∧
      if toSigned word < 0 then
        ∃ s, convert_d conv_buf word = 45 :: s ∧ Numeral 10 (-toSigned word).toNat s
      else Numeral 10 (toSigned word).toNat (convert_d conv_buf word)
  /-- The conversion `%x`. -/
  x : ∀ conv_buf : List UInt8, conv_buf.length = 64 →
    Prints (bytes "%x") word (convert_x conv_buf false word) ∧
      Numeral 16 word (convert_x conv_buf false word)
  /-- The conversion `%#x` gives eight digits. -/
  alternate_x : ∀ conv_buf : List UInt8, conv_buf.length = 64 →
    Prints (bytes "%#x") word (convert_x conv_buf true word) ∧
      (convert_x conv_buf true word).length = 8 ∧
      (∀ c ∈ convert_x conv_buf true word, lookup.idxOf c < 16) ∧
      evaluate 16 (convert_x conv_buf true word) = word

theorem evaluate_zeros (radix count : Nat) (s : List UInt8) :
    evaluate radix (List.replicate count 48 ++ s) = evaluate radix s := by
  induction count with
  | zero => rfl
  | succ count ih =>
      have zero : radix * 0 + lookup.idxOf 48 = 0 := Nat.zero_add _
      rw [List.replicate_succ, List.cons_append, evaluate, List.foldl_cons, zero]
      exact ih

/-- `itoa` and the number conversions are faithful for every word. -/
theorem formats_number {word : Nat} (bound : word < 2 ^ 32) : FormatsNumber word where
  itoa_buffer radix two_le le buf room :=
    ⟨_, _, (text_itoa_buffer two_le le bound room).1, numeral_itoa two_le le bound⟩
  u conv_buf size := by
    rw [convert_u_eq bound size]
    exact ⟨fun format args => rfl, numeral_itoa (by decide) (by decide) bound⟩
  d conv_buf size := by
    rw [convert_d_eq bound size]
    refine ⟨fun format args => rfl, ?_⟩
    rw [decimal]
    split_ifs with negative
    · obtain ⟨magnitude, small⟩ := toUnsigned_neg bound negative
      have value : (-toSigned word).toNat = toUnsigned (-toSigned word) := by omega
      rw [value]
      exact ⟨_, rfl, numeral_itoa (by decide) (by decide) (by omega)⟩
    · have value : (toSigned word).toNat = word := by
        rw [toSigned] at *
        split_ifs at negative ⊢ <;> omega
      rw [value]
      exact numeral_itoa (by decide) (by decide) bound
  x conv_buf size := by
    rw [convert_x_eq bound size]
    exact ⟨fun format args => rfl, numeral_itoa (by decide) (by decide) bound⟩
  alternate_x conv_buf size := by
    have numeral : Numeral 16 word (itoa word 16) := numeral_itoa (by decide) (by decide) bound
    have room : (itoa word 16).length ≤ 8 :=
      itoa_length_le (by decide) bound (by decide) (bound.trans_le (by decide))
    rw [convert_x_eq bound size]
    refine ⟨fun format args => rfl, ?_⟩
    simp only [hexadecimal, if_true]
    refine ⟨?_, ?_, ?_⟩
    · rw [List.length_append, List.length_replicate]
      omega
    · rw [List.forall_mem_append]
      refine ⟨fun c mem => ?_, fun c mem => (numeral.digits c mem).2⟩
      rw [List.eq_of_mem_replicate mem]
      decide
    · rw [evaluate_zeros, numeral.evaluates]

/-- The most negative value. -/
theorem formats_number_most_negative : FormatsNumber (2 ^ 31) :=
  formats_number (by decide)

end ComputerSystem
