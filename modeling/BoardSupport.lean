import BoardSupport.Bench.ByteScript
import BoardSupport.Bench.FaultyMemory
import BoardSupport.Bench.Files
import BoardSupport.Bench.Lines
import BoardSupport.Bench.Log
import BoardSupport.Bench.PsramChip
import BoardSupport.Bench.ScriptedHost
import BoardSupport.Bench.SimBus
import BoardSupport.Bench.SimMachine
import BoardSupport.Bench.SpiScript
import BoardSupport.Bench.WordStore
import BoardSupport.Bench.Workstation
import BoardSupport.Board
import BoardSupport.Boot.Receiver
import BoardSupport.Boot.Transfer
import BoardSupport.Bus
import BoardSupport.Console
import BoardSupport.Delay
import BoardSupport.Display.Pixel
import BoardSupport.Display.Text
import BoardSupport.Fault
import BoardSupport.Firmware.Banners
import BoardSupport.Firmware.Blinky
import BoardSupport.Firmware.Bootloader
import BoardSupport.Firmware.CardReader
import BoardSupport.Firmware.Machine
import BoardSupport.Firmware.MappedMemory
import BoardSupport.Firmware.OledPanel
import BoardSupport.Firmware.SerialMemory
import BoardSupport.Firmware.Settings
import BoardSupport.Font
import BoardSupport.Gpio
import BoardSupport.I2c.BitBang
import BoardSupport.I2c.Controller
import BoardSupport.I2c.Pins
import BoardSupport.I2c.Target
import BoardSupport.Loader.CommandLine
import BoardSupport.Loader.Failure
import BoardSupport.Loader.FileName
import BoardSupport.Loader.Format
import BoardSupport.Loader.Frame
import BoardSupport.Loader.HexImage
import BoardSupport.Loader.Host
import BoardSupport.Loader.SerialLine
import BoardSupport.Loader.Tool
import BoardSupport.Main
import BoardSupport.Memory.Psram
import BoardSupport.Memory.Test
import BoardSupport.Memory.Words
import BoardSupport.Oled.Panel
import BoardSupport.Oled.Writer
import BoardSupport.PartitionTable
import BoardSupport.Platform
import BoardSupport.Program
import BoardSupport.Program.Run
import BoardSupport.Proofs.Boot.Confinement
import BoardSupport.Proofs.Boot.Course
import BoardSupport.Proofs.Boot.Grammar
import BoardSupport.Proofs.Boot.Reception
import BoardSupport.Proofs.Boot.Reframing
import BoardSupport.Proofs.Boot.Refusal
import BoardSupport.Proofs.Boot.RoundTrip
import BoardSupport.Proofs.Bus.Bytes
import BoardSupport.Proofs.Bus.Polling
import BoardSupport.Proofs.Bus.Watching
import BoardSupport.Proofs.Console.Mirror
import BoardSupport.Proofs.Delay.Counting
import BoardSupport.Proofs.Delay.Rounding
import BoardSupport.Proofs.Display.Framebuffer
import BoardSupport.Proofs.Display.Layers
import BoardSupport.Proofs.Firmware.Booting
import BoardSupport.Proofs.Firmware.Building
import BoardSupport.Proofs.Firmware.Constants
import BoardSupport.Proofs.Firmware.Incoming
import BoardSupport.Proofs.Firmware.Outcome
import BoardSupport.Proofs.Firmware.Pressing
import BoardSupport.Proofs.Firmware.Starting
import BoardSupport.Proofs.Firmware.Telling
import BoardSupport.Proofs.I2c.Timing
import BoardSupport.Proofs.I2c.Transactions
import BoardSupport.Proofs.Loader.ByteOrder
import BoardSupport.Proofs.Loader.Bytewise
import BoardSupport.Proofs.Loader.Delivery
import BoardSupport.Proofs.Loader.Draining
import BoardSupport.Proofs.Loader.Handover
import BoardSupport.Proofs.Loader.HexLines
import BoardSupport.Proofs.Loader.Installation
import BoardSupport.Proofs.Loader.NormalForm
import BoardSupport.Proofs.Loader.Rendering
import BoardSupport.Proofs.Loader.Sending
import BoardSupport.Proofs.Loader.Upload
import BoardSupport.Proofs.Loader.Waiting
import BoardSupport.Proofs.Memory.AddressFaults
import BoardSupport.Proofs.Memory.AddressLines
import BoardSupport.Proofs.Memory.DataLines
import BoardSupport.Proofs.Memory.Diagnosis
import BoardSupport.Proofs.Memory.Extent
import BoardSupport.Proofs.Memory.Filling
import BoardSupport.Proofs.Memory.LinesTested
import BoardSupport.Proofs.Memory.StuckBits
import BoardSupport.Proofs.Memory.Wiring
import BoardSupport.Proofs.Oled.Chip
import BoardSupport.Proofs.Oled.Filling
import BoardSupport.Proofs.Oled.Refreshing
import BoardSupport.Proofs.Oled.Typing
import BoardSupport.Proofs.PartitionTable.Layout
import BoardSupport.Proofs.Program.Beginning
import BoardSupport.Proofs.Program.Carrying
import BoardSupport.Proofs.Program.Ending
import BoardSupport.Proofs.Program.Exchange
import BoardSupport.Proofs.Program.Failing
import BoardSupport.Proofs.Program.Observing
import BoardSupport.Proofs.Psram.Accesses
import BoardSupport.Proofs.Psram.Chip
import BoardSupport.Proofs.Psram.Faithful
import BoardSupport.Proofs.SdCard.Acceptance
import BoardSupport.Proofs.SdCard.Answers
import BoardSupport.Proofs.SdCard.BringUp
import BoardSupport.Proofs.SdCard.BringUpGrammar
import BoardSupport.Proofs.SdCard.Conversation
import BoardSupport.Proofs.SdCard.Discipline
import BoardSupport.Proofs.SdCard.Reading
import BoardSupport.Proofs.SdCard.TransferGrammar
import BoardSupport.Proofs.SdCard.Transfers
import BoardSupport.Proofs.SdCard.Wire
import BoardSupport.Proofs.SdCard.Writing
import BoardSupport.Proofs.Serial.Calls
import BoardSupport.Proofs.Serial.FlowControl
import BoardSupport.Proofs.Serial.Port
import BoardSupport.Proofs.Terminal.Transcript
import BoardSupport.Proofs.Word.Bytes
import BoardSupport.SdCard.Driver
import BoardSupport.SdCard.Response
import BoardSupport.Serial.Link
import BoardSupport.Serial.PsUart
import BoardSupport.Serial.Uart
import BoardSupport.Spi.Channel
import BoardSupport.Spi.Master
import BoardSupport.SpinDelay
import BoardSupport.Terminal
import BoardSupport.Text.Blank
import BoardSupport.Text.Described
import BoardSupport.Text.Digits
import BoardSupport.Text.Lines
import BoardSupport.Text.Numeral
import BoardSupport.Text.Quoted
import BoardSupport.Text.Unshown
import BoardSupport.Text.Utf8
import BoardSupport.Timer
import BoardSupport.Word
