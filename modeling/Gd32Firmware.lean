import Gd32Firmware.Machine
import Gd32Firmware.SoftTimer
import Gd32Firmware.SoftTimerHistory
import Gd32Firmware.SoftTimerExpiry
import Gd32Firmware.SoftTimerRepeat
import Gd32Firmware.SoftTimerPreempted
import Gd32Firmware.SysTickDelay
import Gd32Firmware.OverwriteQueue
import Gd32Firmware.RingBuffer
import Gd32Firmware.RingBufferFifo
import Gd32Firmware.RingBufferHistory
import Gd32Firmware.Fmc
import Gd32Firmware.FmcRead
import Gd32Firmware.FmcWrite
import Gd32Firmware.Program
import Gd32Firmware.SpiFlash
import Gd32Firmware.SpiFlashWrite
import Gd32Firmware.SpiFlashCommands
import Gd32Firmware.SdInit
import Gd32Firmware.BitSlice
import Gd32Firmware.SdRegisters
import Gd32Firmware.SdCapacity
import Gd32Firmware.SdAddress
import Gd32Firmware.SdDataPhase
import Gd32Firmware.SdStop
import Gd32Firmware.SdHandler
import Gd32Firmware.SdHistory
import Gd32Firmware.SdPowerOn
import Gd32Firmware.SdBringUp
import Gd32Firmware.DiskSectors
import Gd32Firmware.SdSchedule
import Gd32Firmware.SdLength
import Gd32Firmware.SdPolledWrite
import Gd32Firmware.DiskGeometry
import Gd32Firmware.LwipPeriodic
import Gd32Firmware.LwipInit
import Gd32Firmware.Pbuf
import Gd32Firmware.TcpEcho
import Gd32Firmware.Buzzer
import Gd32Firmware.BuzzerAlarm
import Gd32Firmware.DoWhile
import Gd32Firmware.Enet
import Gd32Firmware.EnetReceive
import Gd32Firmware.BuzzerFlag
import Gd32Firmware.BuzzerOnTime
import Gd32Firmware.SdPolledRead
import Gd32Firmware.DiskMoves
import Gd32Firmware.Returns
import Gd32Firmware.FatWindow
import Gd32Firmware.FatTable
import Gd32Firmware.FatVolume
import Gd32Firmware.FatEntry
import Gd32Firmware.LinkTable
import Gd32Firmware.FatChain
import Gd32Firmware.FatAlloc
import Gd32Firmware.FatStore
import Gd32Firmware.FatFile
import Gd32Firmware.FatBuffer
import Gd32Firmware.FatRead
import Gd32Firmware.FatWrite
import Gd32Firmware.FatSync
import Gd32Firmware.FatSeek
import Gd32Firmware.FatFiles
import Gd32Firmware.FatOpen
