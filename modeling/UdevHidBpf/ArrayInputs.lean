import UdevHidBpf.InputPatches

/-! # Programs that make an array variables

A keyboard that declares its keys as an array but sends one bit for each has the flags of this
Input item changed to those of variables. -/
namespace ArrayInputs

open DeviceEvents FixedDescriptors InputPatches KamvasPen ReportFields ReportMacros ShortItems

section arrays

variable {fields : List Field} {p : Reader} {g : Globals} {usages : List ℕ}
  {first usage k : ℕ}

end arrays

def SPK6327.hidFixRdesc (b : Buffer) : List UInt8 × ℤ := (patchFlags 0x00 0x02 b.data 101, 0)

section programs

variable {b : Buffer} {pre post : List Item} {p : Reader} {fields : List Field}

end programs

end ArrayInputs
