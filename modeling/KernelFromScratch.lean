import KernelFromScratch.Terminal
import KernelFromScratch.Library.Layout
import KernelFromScratch.Library.Zipper
import KernelFromScratch.Proof.Video
import KernelFromScratch.Proof.Window
import KernelFromScratch.Proof.Putc
import KernelFromScratch.Proof.Editing
import KernelFromScratch.Proof.Input
import KernelFromScratch.Proof.Output
import KernelFromScratch.Proof.Refinement
import KernelFromScratch.OperationRuns
import KernelFromScratch.Keyboard
import KernelFromScratch.Scancode
import KernelFromScratch.Proof.Reaction
import KernelFromScratch.Library.Run
import KernelFromScratch.Proof.KernelRuns
import KernelFromScratch.ScancodeRuns
import KernelFromScratch.Proof.LastRow
import KernelFromScratch.Proof.Prompt
import KernelFromScratch.Display
import KernelFromScratch.Scrolling
import KernelFromScratch.Isolation
import KernelFromScratch.Dispatch
import KernelFromScratch.ReadCommand
import KernelFromScratch.KeyBuffer
import KernelFromScratch.MainLoop
import KernelFromScratch.Library.Numeral
import KernelFromScratch.Printk
import KernelFromScratch.Proof.Digits
import KernelFromScratch.Format
import KernelFromScratch.Proof.PrintkRuns
import KernelFromScratch.Formatting
import KernelFromScratch.Interrupt
import KernelFromScratch.Transparency
import KernelFromScratch.Library.Pic8259
import KernelFromScratch.Pic
import KernelFromScratch.Delivery
import KernelFromScratch.Acknowledge
import KernelFromScratch.Library.Framing
import KernelFromScratch.Mouse
import KernelFromScratch.ScrollBack
import KernelFromScratch.Library.Copy
import KernelFromScratch.Mem
import KernelFromScratch.PutnbrOutput
import KernelFromScratch.Library.While
import KernelFromScratch.Request
import KernelFromScratch.Multiboot
import KernelFromScratch.MemoryMap
import KernelFromScratch.Proof.ReportLines
import KernelFromScratch.MemoryReport
import KernelFromScratch.StackDump
import KernelFromScratch.StackReads
import KernelFromScratch.Visibility
import KernelFromScratch.Modifiers
import KernelFromScratch.Library.Mailbox
import KernelFromScratch.Ps2
import KernelFromScratch.MouseInit
import KernelFromScratch.Library.Steps
import KernelFromScratch.System
import KernelFromScratch.Drain
import KernelFromScratch.Typing
import KernelFromScratch.Halt
import KernelFromScratch.Library.Descriptor
import KernelFromScratch.Gdt
import KernelFromScratch.Library.Fill
import KernelFromScratch.Boot
import KernelFromScratch.Library.Gate
import KernelFromScratch.Startup
import KernelFromScratch.Library.CString
import KernelFromScratch.Strings
import KernelFromScratch.ShellMemory
import KernelFromScratch.Reboot
import KernelFromScratch.Monitor
import KernelFromScratch.Library.Field
import KernelFromScratch.Proof.DumpLines
import KernelFromScratch.DumpText
import KernelFromScratch.Submitted
import KernelFromScratch.Messages
