/-!
# A configuration to start from
-/

namespace StructuralSchema.Configuration

def defaultFileName : String :=
  "json-schema-lite.yaml"

def template : String :=
  "# Validator configuration template for json-schema-lite.\n" ++
  "# Every setting is optional; remove a line to keep its default.\n" ++
  "\n" ++
  "validation:\n" ++
  "  # Maximum number of chained $ref hops followed before giving up.\n" ++
  "  max_reference_depth: 32\n" ++
  "  # What to do with oneOf/anyOf/allOf/not, additionalProperties,\n" ++
  "  # patternProperties, format, pattern and enum: \"report\" or \"ignore\".\n" ++
  "  unsupported_keywords: \"report\"\n"

end StructuralSchema.Configuration
