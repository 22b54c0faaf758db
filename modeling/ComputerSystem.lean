import ComputerSystem.AddressSpace
import ComputerSystem.ArgumentBounds
import ComputerSystem.Arguments
import ComputerSystem.BackgroundOutput
import ComputerSystem.Backspace
import ComputerSystem.Blink
import ComputerSystem.BlinkList
import ComputerSystem.BlinkPhase
import ComputerSystem.BlinkRegistry
import ComputerSystem.BlinkStage
import ComputerSystem.BlinkTiming
import ComputerSystem.BlockWalk
import ComputerSystem.Boot
import ComputerSystem.CArray
import ComputerSystem.CString
import ComputerSystem.CallReturn
import ComputerSystem.CommandScan
import ComputerSystem.DescriptorTable
import ComputerSystem.Descriptors
import ComputerSystem.Desk
import ComputerSystem.Dialogue
import ComputerSystem.Directory
import ComputerSystem.DirectoryIndex
import ComputerSystem.Echo
import ComputerSystem.FailedExecute
import ComputerSystem.FilePrograms
import ComputerSystem.Fish
import ComputerSystem.FishFrames
import ComputerSystem.FishScreen
import ComputerSystem.FormatScan
import ComputerSystem.Gates
import ComputerSystem.Grep
import ComputerSystem.GrepFiles
import ComputerSystem.HardwareCursor
import ComputerSystem.I8259
import ComputerSystem.Ia32
import ComputerSystem.Idt
import ComputerSystem.Image
import ComputerSystem.InterruptLines
import ComputerSystem.InterruptLinkage
import ComputerSystem.Interrupts
import ComputerSystem.Isolation
import ComputerSystem.Keyboard
import ComputerSystem.Lifecycle
import ComputerSystem.LineBounds
import ComputerSystem.LineBuffer
import ComputerSystem.LineDiscipline
import ComputerSystem.LineEditor
import ComputerSystem.LinePieces
import ComputerSystem.LinkedList
import ComputerSystem.Loading
import ComputerSystem.MemoryRoutines
import ComputerSystem.NumberFormat
import ComputerSystem.PageWalk
import ComputerSystem.Pic8259
import ComputerSystem.Placement
import ComputerSystem.Printf
import ComputerSystem.Process
import ComputerSystem.ProcessEffects
import ComputerSystem.Provenance
import ComputerSystem.ReadBounds
import ComputerSystem.ReadData
import ComputerSystem.ReadRange
import ComputerSystem.Rtc
import ComputerSystem.RtcTiming
import ComputerSystem.Run
import ComputerSystem.Scheduling
import ComputerSystem.Screen
import ComputerSystem.ScreenText
import ComputerSystem.SequentialRead
import ComputerSystem.Shell
import ComputerSystem.StrayStores
import ComputerSystem.Succession
import ComputerSystem.SystemCall
import ComputerSystem.Tape
import ComputerSystem.Teletype
import ComputerSystem.Terminal
import ComputerSystem.UserCalls
import ComputerSystem.UserPrograms
import ComputerSystem.VideoMapping
import ComputerSystem.VideoMemory
import ComputerSystem.VirtualScreen
import ComputerSystem.Word
