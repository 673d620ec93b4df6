import ContentApi.Schema.View

/-! Metadata templates: the fields that instances of a template may have. -/

namespace ContentApi

/-- Whether a template is hidden from people, which it is not unless it says so. -/
def isHiddenTemplate (t : Record .template) : Bool :=
  (t.flag? "hidden").getD false

/-- The fields of a template. -/
def templateFields (t : Record .template) : List (Record .templateField) :=
  (t.get (.ofIndex _ 5 rfl)).items.map Datum.fields

/-- The first field of a template with a key. -/
def templateField? (t : Record .template) (key : String) : Option (Record .templateField) :=
  (templateFields t).find? fun field => field.text? "key" == some key

/-- The keys of the values among which a field lets one choose. -/
def fieldOptions (f : Record .templateField) : List String :=
  (f.get (.ofIndex _ 6 rfl)).omittableItems.map fun option =>
    (option.fields.get (.ofIndex _ 0 rfl)).mandatoryValue

/-- The value of a field with a key. -/
def optionOfKey (key : String) : Datum (.record .templateOption) :=
  .record (.cons (.mandatory (l := .text) key) .nil)

/-- A field of a type with a key, a name for people and the values to choose from. -/
def newTemplateField (type key displayName : String) (options : List String) :
    Record .templateField :=
  (((Fields.blank Kind.templateField.members
    |>.set (.ofIndex _ 1 rfl) (.given (.leaf (l := .text) type)))
    |>.set (.ofIndex _ 2 rfl) (.given (.leaf (l := .text) key)))
    |>.set (.ofIndex _ 3 rfl) (.given (.leaf (l := .text) displayName)))
    |>.set (.ofIndex _ 6 rfl) (.omittable (Items.ofList (options.map optionOfKey)))

end ContentApi
