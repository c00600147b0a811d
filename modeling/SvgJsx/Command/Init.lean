import SvgJsx.Command.Result
import SvgJsx.FileTree.Write

/-! The command that sets a project up: a configuration with the default settings, and a sample
drawing. A configuration that is there is kept, unless it is to be overwritten. -/

namespace SvgJsx.Command
open Text

def defaultConfigText : Text := "# jsxify configuration

[convert]
# Name of the generated component
component_name = \"SvgIcon\"

# \"scoped\" rewrites attribute names only.
# \"legacy\" rewrites every lowercase-hyphen-lowercase run, values included.
rename_mode = \"scoped\"

[batch]
# Output directory for `jsxify batch` and `jsxify watch`
output = \"components\"

# File extension for generated components
extension = \"jsx\"

[serve]
host = \"127.0.0.1\"
port = 7777
open = true
".toList

def sampleIcon : Text := "<svg xmlns=\"http://www.w3.org/2000/svg\" width=\"24\" height=\"24\" viewBox=\"0 0 24 24\" class=\"icon\">
  <circle cx=\"12\" cy=\"12\" r=\"10\" fill=\"none\" stroke=\"currentColor\" stroke-width=\"2\"/>
  <path d=\"m9 12 2 2 4-4\" style=\"stroke:currentColor;stroke-linecap:round;stroke-linejoin:round\" fill-rule=\"evenodd\"/>
</svg>
".toList

def configName : Text := "jsxify.toml".toList

def placeSample (fs : FileTree) (icons : Path) (overwrite : Bool) : Result :=
  let sample := icons.join ⟨"check-circle.svg".toList⟩
  let closing : List LogEntry :=
    [⟨.info, "Initialization complete!".toList⟩,
     ⟨.info, "Run 'jsxify batch icons' to generate components.".toList⟩]
  if !fs.has sample || overwrite then
    match fs.write sample sampleIcon with
    | ⟨tree, some cause⟩ =>
      { tree, failure? := some (.during "Failed to write check-circle.svg".toList cause) }
    | ⟨tree, none⟩ =>
      { tree, log := ⟨.info, "Created icons/check-circle.svg".toList⟩ :: closing }
  else { tree := fs, log := closing }

def placeIcons (fs : FileTree) (root : Path) (overwrite : Bool) : Result :=
  let icons := root.join ⟨"icons".toList⟩
  if fs.has icons then placeSample fs icons overwrite
  else
    match fs.createDirectories icons with
    | ⟨tree, some cause⟩ =>
      { tree, failure? := some (.during "Failed to create icons directory".toList cause) }
    | ⟨tree, none⟩ => placeSample tree icons overwrite

def init (root : Path) (overwrite : Bool) (fs : FileTree) : Result :=
  let opening : LogEntry := ⟨.info, "Initializing jsxify...".toList⟩
  let config := root.join ⟨configName⟩
  if fs.has config && !overwrite then
    { tree := fs
      log := [opening,
        ⟨.warn, "jsxify.toml already exists. Use --yes to overwrite.".toList⟩] }
  else
    match fs.write config defaultConfigText with
    | ⟨tree, some cause⟩ =>
      { tree, log := [opening],
        failure? := some (.during "Failed to write jsxify.toml".toList cause) }
    | ⟨tree, none⟩ =>
      (placeIcons tree root overwrite).behind
        [opening, ⟨.info, "Created jsxify.toml".toList⟩]

end SvgJsx.Command
