import ScriptGraph.Function.Registry

/-!
# The built-in catalog

The functions that every script may use without further declaration.
-/
namespace ScriptGraph.Registry

/-- The built-in functions. The last two are keywords of the dialect; nodes that branch
or stop early do not refer to them. -/
def catalog : List Schema :=
  [⟨"RoundStart", .timing, []⟩,
    ⟨"RoundEnd", .timing, []⟩,
    ⟨"BattleStart", .timing, []⟩,
    ⟨"BattleEnd", .timing, []⟩,
    ⟨"TurnStart", .timing, []⟩,
    ⟨"TurnEnd", .timing, []⟩,
    ⟨"OnUseCard", .timing, ["cardId"]⟩,
    ⟨"OnDamaged", .timing, ["source"]⟩,
    ⟨"OnKill", .timing, ["target"]⟩,
    ⟨"getdata", .valueAcquisition, ["target", "id"]⟩,
    ⟨"gethp", .valueAcquisition, ["target"]⟩,
    ⟨"getbuf", .valueAcquisition, ["target", "keyword"]⟩,
    ⟨"getcount", .valueAcquisition, ["target", "kind"]⟩,
    ⟨"random", .valueAcquisition, ["min", "max"]⟩,
    ⟨"calc", .valueAcquisition, ["left", "operator", "right"]⟩,
    ⟨"buf", .consequence, ["target", "keyword", "stack", "turn", "delay"]⟩,
    ⟨"damage", .consequence, ["target", "amount"]⟩,
    ⟨"heal", .consequence, ["target", "amount"]⟩,
    ⟨"setdata", .consequence, ["target", "id", "value"]⟩,
    ⟨"draw", .consequence, ["target", "count"]⟩,
    ⟨"addlight", .consequence, ["target", "amount"]⟩,
    ⟨"IF", .conditional, ["condition"]⟩,
    ⟨"CONTINUEIF", .continueIf, ["condition"]⟩]

/-- The registry of the built-in functions. -/
def builtIn : Registry := empty.registerAll catalog

end ScriptGraph.Registry
