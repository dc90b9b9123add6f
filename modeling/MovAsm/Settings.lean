import MovAsm.Assembly

/-!
# Settings

How large an image is, how its words are written, and whether a log is kept. Settings come from a
build file or from the command line and are checked before they are used.
-/

namespace MovAsm

/-- The settings of an assembly: the number of words of the image, the number of digits of a word in
the dump, and whether to keep a log. -/
structure Settings where
  capacity : Int := Assembler.defaultCapacity
  width : Int := Assembler.defaultWidth
  verbose : Bool := false
  deriving DecidableEq, Repr

/-- What can be wrong with the setting of a `name`: its type, or its value. -/
inductive SettingFault where
  | wrongType (name : String)
  | outOfRange (name : String) (value : Int)
  deriving DecidableEq, Repr

/-- The text of a `SettingFault`. -/
def SettingFault.message (phrase : Text.Phrasing) : SettingFault → String
  | wrongType name => phrase "'%v' has the wrong type" [.text name]
  | outOfRange name value => phrase "%v %v out of range" [.text name, .number value]

namespace Settings

/-- The `capacity` of the largest image that can be addressed. -/
def largestCapacity : Int := 0x10000

/-- Requires the `capacity` to lie between 1 and `largestCapacity`, and the `width` to be 2 or 4. -/
def validate (settings : Settings) : Except SettingFault Unit :=
  if settings.capacity < 1 || largestCapacity < settings.capacity then
    throw (.outOfRange "capacity" settings.capacity)
  else if settings.width != 2 && settings.width != 4 then
    throw (.outOfRange "width" settings.width)
  else pure ()

/-- An `Assembler` with these settings. -/
def assembler (settings : Settings) : Assembler :=
  { capacity := settings.capacity, width := settings.width, verbose := settings.verbose }

end Settings

end MovAsm
