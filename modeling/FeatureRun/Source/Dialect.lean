/-!
The keywords of feature texts in each language. A keyword is recognised in the order of its list, so
a longer word that starts with a shorter one has to come first to be seen.
-/

namespace FeatureRun

structure Dialect where
  feature : List String
  background : List String
  rule : List String
  scenario : List String
  scenarioOutline : List String
  examples : List String
  given : List String
  «when» : List String
  «then» : List String
  and : List String
  but : List String

namespace Dialect

def english : Dialect where
  feature := ["Feature", "Business Need", "Ability"]
  background := ["Background"]
  rule := ["Rule"]
  scenario := ["Example", "Scenario"]
  scenarioOutline := ["Scenario Outline", "Scenario Template"]
  examples := ["Examples", "Scenarios"]
  given := ["* ", "Given "]
  «when» := ["* ", "When "]
  «then» := ["* ", "Then "]
  and := ["* ", "And "]
  but := ["* ", "But "]

def german : Dialect where
  feature := ["Funktionalität", "Funktion"]
  background := ["Grundlage", "Hintergrund", "Voraussetzungen", "Vorbedingungen"]
  rule := ["Rule", "Regel"]
  scenario := ["Beispiel", "Szenario"]
  scenarioOutline := ["Szenariogrundriss", "Szenarien"]
  examples := ["Beispiele"]
  given := ["* ", "Angenommen ", "Gegeben sei ", "Gegeben seien "]
  «when» := ["* ", "Wenn "]
  «then» := ["* ", "Dann "]
  and := ["* ", "Und "]
  but := ["* ", "Aber "]

def russian : Dialect where
  feature := ["Функция", "Функциональность", "Функционал", "Свойство"]
  background := ["Предыстория", "Контекст"]
  rule := ["Правило"]
  scenario := ["Пример", "Сценарий"]
  scenarioOutline := ["Структура сценария", "Шаблон сценария"]
  examples := ["Примеры"]
  given := ["* ", "Допустим ", "Дано ", "Пусть "]
  «when» := ["* ", "Когда ", "Если "]
  «then» := ["* ", "То ", "Затем ", "Тогда "]
  and := ["* ", "И ", "К тому же ", "Также "]
  but := ["* ", "Но ", "А ", "Иначе "]

def pirate : Dialect where
  feature := ["Ahoy matey!"]
  background := ["Yo-ho-ho"]
  rule := ["Rule"]
  scenario := ["Heave to"]
  scenarioOutline := ["Shiver me timbers"]
  examples := ["Dead men tell no tales"]
  given := ["* ", "Gangway! "]
  «when» := ["* ", "Blimey! "]
  «then» := ["* ", "Let go and haul "]
  and := ["* ", "Aye "]
  but := ["* ", "Avast! "]

def formal : Dialect where
  feature := ["Section"]
  background := ["Context"]
  rule := ["Rule"]
  scenario := ["Proof", "Evidence"]
  scenarioOutline := ["Demonstration"]
  examples := ["Examples"]
  given := ["Given"]
  «when» := ["When"]
  «then» := ["Then"]
  and := ["*", "And"]
  but := ["But"]

/-- The dialect a language line asks for. -/
def ofName? : String → Option Dialect
  | "en" => some english
  | "de" => some german
  | "ru" => some russian
  | "en-pirate" => some pirate
  | "formal" => some formal
  | _ => none

/-- Keywords that end a scenario's or background's description. -/
def stepsFollow (d : Dialect) : List String :=
  d.scenario ++ d.scenarioOutline ++ d.given ++ d.when ++ d.then ++ d.and ++ d.but

/-- Keywords that end a rule's description. -/
def ruleBody (d : Dialect) : List String := d.background ++ d.scenario ++ d.scenarioOutline

/-- Keywords that end a feature's description. -/
def featureBody (d : Dialect) : List String :=
  d.background ++ d.rule ++ d.scenario ++ d.scenarioOutline

end Dialect

end FeatureRun
