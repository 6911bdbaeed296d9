import RepRapFirmware.Tmc2660.Fields
import RepRapFirmware.Tmc2660.Scales
import RepRapFirmware.Tmc2660.DirtyMask
import RepRapFirmware.Tmc2660.Polling
import RepRapFirmware.Tmc2660.StatusRace
import RepRapFirmware.Tmc2660.Bus
import RepRapFirmware.Tmc2660.Wire
import RepRapFirmware.Tmc2660.SmartDrivers
import RepRapFirmware.Tmc2660.LoadRace
import RepRapFirmware.Tmc2660.StallReports
import RepRapFirmware.Display.MenuLaws
import RepRapFirmware.Display.FileList
import RepRapFirmware.Display.MenuFile
import RepRapFirmware.Display.CommandBuffer
import RepRapFirmware.Display.CurrentFile
import RepRapFirmware.Display.LineFormat
import RepRapFirmware.Display.Return
import RepRapFirmware.Display.Commands
import RepRapFirmware.Display.Selection
import RepRapFirmware.Display.LoadError
import RepRapFirmware.Tmc2660.Facade
