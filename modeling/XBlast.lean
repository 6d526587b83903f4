import XBlast.Flash.RestOfChip
import XBlast.Flash.SkippedSave
import XBlast.Image.Agreement
import XBlast.Fatx.FormatMount
import XBlast.Fatx.SlaveIsolation
import XBlast.Flash.ProgressStates
import XBlast.Memory.Separation
import XBlast.Settings.ConfigRoundTrip
import XBlast.Script.DanglingElse
import XBlast.Script.Arithmetic
import XBlast.Script.Goto
import XBlast.Fatx.NewDrive
import XBlast.Files.VirtualRoot
import XBlast.Cdrom.GetFile
import XBlast.Lcd.Fifo
import XBlast.Settings.ChangeTracker
import XBlast.Memory.OutOfMemory
import XBlast.Eeprom.BruteForce
import XBlast.Eeprom.ChangeList
import XBlast.Fatx.DirRemoval
import XBlast.Flash.EraseAttempts
import XBlast.Flash.Programming
import XBlast.Flash.UpdateCheck
import XBlast.Flash.Updates
import XBlast.Flash.MachineIndices
import XBlast.Script.MenuActions
import XBlast.Script.StringLeaks
import XBlast.Script.EntryUses
import XBlast.Menu.MenuWindow
