import WebHarvest.Text.Quoted

/-!
# Issues found in input

Checking a model does not stop at the first bad field: it reports one issue for each, with the place
of the field and the cause. Input that came as JSON text is reported in the words of JSON.
-/

set_option autoImplicit false

namespace WebHarvest

/-- Where the input comes from, which decides the words for its containers. -/
inductive InputForm where
  | host
  | json
  deriving DecidableEq, Repr

inductive PlaceStep where
  | name (key : String)
  | index (n : Int)
  deriving DecidableEq, Repr

/-- Why a field is not accepted. -/
inductive IssueCause where
  | intType
  | intParsing
  | intParsingSize
  | intFromFloat
  | finiteNumber
  | floatType
  | floatParsing
  | boolType
  | boolParsing
  | stringType
  | stringUnicode
  | listType (form : InputForm)
  | dictType (form : InputForm)
  | modelType (model : String) (form : InputForm)
  | pathType
  | callableType
  | handlerType
  | missing
  | frozen
  | enumeration (choices : List String)
  | literal (choices : List String)
  | atLeast (bound : Int)
  | atMost (bound : Int)
  /-- A rule of the model itself. -/
  | rule (text : String)
  | datetimeType
  | datetimeParsing (reason : String)
  | dateParsing (reason : String)
  /-- The whole text is not JSON. -/
  | jsonInvalid
  deriving DecidableEq, Repr

namespace IssueCause

def code : IssueCause → String
  | intType => "int_type"
  | intParsing => "int_parsing"
  | intParsingSize => "int_parsing_size"
  | intFromFloat => "int_from_float"
  | finiteNumber => "finite_number"
  | floatType => "float_type"
  | floatParsing => "float_parsing"
  | boolType => "bool_type"
  | boolParsing => "bool_parsing"
  | stringType => "string_type"
  | stringUnicode => "string_unicode"
  | listType _ => "list_type"
  | dictType _ => "dict_type"
  | modelType _ _ => "model_type"
  | pathType => "path_type"
  | callableType => "callable_type"
  | handlerType => "is_instance_of"
  | missing => "missing"
  | frozen => "frozen_instance"
  | enumeration _ => "enum"
  | literal _ => "literal_error"
  | atLeast _ => "greater_than_equal"
  | atMost _ => "less_than_equal"
  | rule _ => "value_error"
  | datetimeType => "datetime_type"
  | datetimeParsing _ => "datetime_parsing"
  | dateParsing _ => "datetime_from_date_parsing"
  | jsonInvalid => "json_invalid"

/-- Choices in quotes, with "or" before the last. -/
def listChoices (choices : List String) : String :=
  match (choices.map Text.quoted).reverse with
  | [] => ""
  | [only] => only
  | last :: others => ", ".intercalate others.reverse ++ " or " ++ last

def message : IssueCause → String
  | intType => "Input should be a valid integer"
  | intParsing => "Input should be a valid integer, unable to parse string as an integer"
  | intParsingSize =>
      "Unable to parse input string as an integer, exceeded maximum size"
  | intFromFloat => "Input should be a valid integer, got a number with a fractional part"
  | finiteNumber => "Input should be a finite number"
  | floatType => "Input should be a valid number"
  | floatParsing => "Input should be a valid number, unable to parse string as a number"
  | boolType => "Input should be a valid boolean"
  | boolParsing => "Input should be a valid boolean, unable to interpret input"
  | stringType => "Input should be a valid string"
  | stringUnicode => "Input should be a valid string, unable to parse raw data as a unicode string"
  | listType .host => "Input should be a valid list"
  | listType .json => "Input should be a valid array"
  | dictType .host => "Input should be a valid dictionary"
  | dictType .json => "Input should be an object"
  | modelType model .host => "Input should be a valid dictionary or instance of " ++ model
  | modelType _ .json => "Input should be an object"
  | pathType => "Input is not a valid path for <class 'pathlib.Path'>"
  | callableType => "Input should be callable"
  | handlerType => "Input should be an instance of Handler"
  | missing => "Field required"
  | frozen => "Instance is frozen"
  | enumeration choices => "Input should be " ++ listChoices choices
  | literal choices => "Input should be " ++ listChoices choices
  | atLeast bound => "Input should be greater than or equal to " ++ toString bound
  | atMost bound => "Input should be less than or equal to " ++ toString bound
  | rule text => "Value error, " ++ text
  | datetimeType => "Input should be a valid datetime"
  | datetimeParsing reason => "Input should be a valid datetime, " ++ reason
  | dateParsing reason => "Input should be a valid datetime or date, " ++ reason
  | jsonInvalid => "Invalid JSON"

end IssueCause

/-- One bad field: its place, from the model down, and the cause. -/
structure Issue where
  place : List PlaceStep := []
  cause : IssueCause
  deriving DecidableEq, Repr

def Issue.under (step : PlaceStep) (issue : Issue) : Issue :=
  { issue with place := step :: issue.place }

end WebHarvest
