/-!
# Keys — the key names of `keys.py`

`KEYMAP` with the values of the `Key` members it names, and the reverse map of `loggingproxy.py`,
in which a later name of the same key replaces an earlier one.
-/

namespace Vncdotool

/-- `KEYMAP`. -/
def keymap : List (String × Nat) :=
  [("bsp", 0xFF08), ("tab", 0xFF09), ("return", 0xFF0D), ("enter", 0xFF0D), ("esc", 0xFF1B),
    ("ins", 0xFF63), ("delete", 0xFFFF), ("del", 0xFFFF), ("home", 0xFF50), ("end", 0xFF57),
    ("pgup", 0xFF55), ("pgdn", 0xFF56), ("left", 0xFF51), ("up", 0xFF52), ("right", 0xFF53),
    ("down", 0xFF54), ("slash", 0x005C), ("bslash", 0x005C), ("fslash", 0x002F),
    ("spacebar", 0x0020), ("space", 0x0020), ("sb", 0x0020), ("f1", 0xFFBE), ("f2", 0xFFBF),
    ("f3", 0xFFC0), ("f4", 0xFFC1), ("f5", 0xFFC2), ("f6", 0xFFC3), ("f7", 0xFFC4), ("f8", 0xFFC5),
    ("f9", 0xFFC6), ("f10", 0xFFC7), ("f11", 0xFFC8), ("f12", 0xFFC9), ("f13", 0xFFCA),
    ("f14", 0xFFCB), ("f15", 0xFFCC), ("f16", 0xFFCD), ("f17", 0xFFCE), ("f18", 0xFFCF),
    ("f19", 0xFFD0), ("f20", 0xFFD1), ("lshift", 0xFFE1), ("shift", 0xFFE1), ("rshift", 0xFFE2),
    ("lctrl", 0xFFE3), ("ctrl", 0xFFE3), ("rctrl", 0xFFE4), ("lmeta", 0xFFE7), ("meta", 0xFFE7),
    ("rmeta", 0xFFE8), ("lalt", 0xFFE9), ("alt", 0xFFE9), ("ralt", 0xFFEA), ("scrlk", 0xFF14),
    ("sysrq", 0xFF15), ("numlk", 0xFF7F), ("caplk", 0xFFE5), ("pause", 0xFF13), ("lsuper", 0xFFEB),
    ("super", 0xFFEB), ("rsuper", 0xFFEC), ("lhyper", 0xFFED), ("hyper", 0xFFED),
    ("rhyper", 0xFFEE), ("kp0", 0xFFB0), ("kp1", 0xFFB1), ("kp2", 0xFFB2), ("kp3", 0xFFB3),
    ("kp4", 0xFFB4), ("kp5", 0xFFB5), ("kp6", 0xFFB6), ("kp7", 0xFFB7), ("kp8", 0xFFB8),
    ("kp9", 0xFFB9), ("kpenter", 0xFF8D), ("minus", 0x002D)]

/-- `REVERSE_MAP.get(key)`. -/
def reverseMap (key : Nat) : Option String :=
  (keymap.reverse.find? fun entry => entry.2 = key).map Prod.fst

theorem mem_keymap {key : Nat} {name : String} (h : reverseMap key = some name) :
    (name, key) ∈ keymap := by
  rcases Option.map_eq_some_iff.1 h with ⟨entry, hentry, hname⟩
  have hkey : entry.2 = key := by simpa using List.find?_some hentry
  have hmem : entry ∈ keymap := List.mem_reverse.1 (List.mem_of_find?_eq_some hentry)
  rw [← hname, ← hkey]
  exact hmem

end Vncdotool
