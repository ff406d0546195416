import UdevHidBpf.HidBpfAsync
import UdevHidBpf.LoadBpfFiles
import UdevHidBpf.ExtractBits
import UdevHidBpf.RdescLayout
import UdevHidBpf.BtfLayout
import UdevHidBpf.BtfCompleteness
import UdevHidBpf.UdevInjection
import UdevHidBpf.UdevRules
import UdevHidBpf.Inspiroy2S
import UdevHidBpf.KeydialK20
import UdevHidBpf.XppenArtist24
import UdevHidBpf.KamvasPro19
import UdevHidBpf.PadTypeProbe
import UdevHidBpf.DescriptorInjection
import UdevHidBpf.ObjectNames
import UdevHidBpf.MesonEdits
import UdevHidBpf.SysfsDevices
import UdevHidBpf.ConfigMetadata
import UdevHidBpf.ReportMacros
import UdevHidBpf.AsyncInit
import UdevHidBpf.PinPaths
import UdevHidBpf.PropertyOutput
import UdevHidBpf.HidDevices
import UdevHidBpf.ModaliasParsing
import UdevHidBpf.KernelTree
import UdevHidBpf.ExtractAccesses
import UdevHidBpf.ArtPen
import UdevHidBpf.ArtistPro16Gen2
import UdevHidBpf.WaltopTablet
import UdevHidBpf.VendorPads
import UdevHidBpf.Dial2
import UdevHidBpf.KamvasGen3
import UdevHidBpf.KamvasPen
import UdevHidBpf.KeydialKeys
import UdevHidBpf.DecoPads
import UdevHidBpf.SurfaceDial
import UdevHidBpf.AddedDevices
import UdevHidBpf.ObjectLookup
import UdevHidBpf.SplitPaths
import UdevHidBpf.FileTrees
import UdevHidBpf.CmdInstall
import UdevHidBpf.InstallResult
import UdevHidBpf.DryRun
import UdevHidBpf.LabelledGraphs
import UdevHidBpf.BtfTermination
import UdevHidBpf.ExportedProps
import UdevHidBpf.CStrings
import UdevHidBpf.PrintkEvent
import UdevHidBpf.StructOpsScan
import UdevHidBpf.UdevEvents
import UdevHidBpf.Interleavings
import UdevHidBpf.BpffsWorkers
import UdevHidBpf.PinnedListing
import UdevHidBpf.AsyncActivations
import UdevHidBpf.FixedDescriptors
import UdevHidBpf.Ack05
import UdevHidBpf.HuionFirmware
import UdevHidBpf.H610Pro
import UdevHidBpf.Deco02
import UdevHidBpf.Inspiroy2SVersions
import UdevHidBpf.ListDevices
import UdevHidBpf.RemoveCommand
import UdevHidBpf.AddCommand
import UdevHidBpf.HuionDescriptors
import UdevHidBpf.ReservedReports
import UdevHidBpf.HuionNodes
import UdevHidBpf.HuionPads
import UdevHidBpf.Kamvas13
import UdevHidBpf.InputPatches
import UdevHidBpf.ArrayInputs
