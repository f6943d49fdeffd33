import BoardSupport.Word

/-! The address map of the system on chip, fixed by its bus and the same on every board. -/
namespace BoardSupport

abbrev Address := UInt64

namespace Platform

/-- The clock of the system and its peripherals, in hertz. -/
def referenceClock : UInt32 := 50000000

/-- Where the resident bootloader starts: the top 4 KiB of 64 KiB of block memory. -/
def bootloaderBase : Address := 0x10000 - 0x1000

/-- The switch that asks a program to hand over to the bootloader at startup. -/
def bootSwitch : UInt32 := 15

/-- Lights, seven-segment display, I²C pins, buttons and switches. -/
def gpioBase : Address := 0x10000000

def uartBase : Address := 0x20000000

def timerBase : Address := 0x30000000

def textBase : Address := 0x40000000

/-- The SPI master of the SD card. -/
def sdCardBase : Address := 0x50000000

/-- The serial memory: the SPI master wired to it, or the window onto it. -/
def psramBase : Address := 0x60000000

/-- The pixel framebuffer, in memory shared with the processing system. -/
def framebufferBase : Address := 0xD0000000

/-- The processing system's own serial port. -/
def psUartBase : Address := 0xE0000000

end Platform

end BoardSupport
