import DebugMonitor.Text.Basic

/-!
# Regions

The console names addresses by region, the same ones on every chip. Next to the name it shows the
low 21 bits of the address.
-/

namespace DebugMonitor

/-- The regions under the names that the console shows. -/
inductive Region where
  | xdata
  | idata
  | pdata
  | code
  | sfr
  deriving DecidableEq, Repr

namespace Region

def name : Region → Text
  | xdata => "XDATA"
  | idata => "IDATA"
  | pdata => "PDATA"
  | code => "CODE"
  | sfr => "SFR"

/-- The region of an address. What lies past the other regions counts as registers. -/
def ofAddress (address : UInt32) : Region :=
  if address < 0x200000 then xdata
  else if address < 0x300000 then idata
  else if address < 0x400000 then pdata
  else if address < 0xc00000 then code
  else sfr

def offset (address : UInt32) : UInt32 := address &&& 0x1fffff

end Region

end DebugMonitor
