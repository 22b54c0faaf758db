import ComputerSystem.Word

/-!
# The virtualised RTC

One counter and one rate serve every open RTC descriptor.  The interrupt handler counts up, and a
reader spins until the counter has exactly the value of the rate.
-/

namespace ComputerSystem

open Word

/-- The globals of the RTC driver. -/
structure Rtc where
  /-- Interrupts counted since the last reset. -/
  freq_ctr : Int
  /-- Interrupts that make one tick at the rate asked for. -/
  freq_val : Int

namespace Rtc

/-- The globals at boot. -/
def boot : Rtc where
  freq_ctr := 0
  freq_val := 1

/-- `rtc_open`: reset the counter and set 2 Hz. -/
def rtc_open (_rtc : Rtc) : Rtc where
  freq_ctr := 0
  freq_val := 1024 / 2

/-- `rtc_read`: the counter is reset once it reaches the rate; until then the reader spins. -/
def rtc_read (rtc : Rtc) : Option Rtc :=
  if rtc.freq_ctr = rtc.freq_val then some { rtc with freq_ctr := 0 } else none

/-- `rtc_write`: accept the powers of two from 2 to 1024 Hz. -/
def rtc_write (rtc : Rtc) (rate : Int) : Int × Rtc :=
  if rate > 1024 ∨ rate < 2 then (-1, rtc)
  else if rate.toNat &&& (rate.toNat - 1) ≠ 0 then (-1, rtc)
  else (0, { freq_ctr := 0, freq_val := 1024 / rate })

/-- `rtc_handler`: count one interrupt, wrapping as the machine's `addl` does. -/
def rtc_handler (rtc : Rtc) : Rtc :=
  { rtc with freq_ctr := toSigned (toUnsigned (rtc.freq_ctr + 1)) }

end Rtc

end ComputerSystem
